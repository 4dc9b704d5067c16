import Hotstuff.Agreement
import Hotstuff.ProposerLeaf

/-!
# When a proposer asks for a non-empty body

`do_propose` asks the VM for a non-empty body when the leaf, its parent and its
grandparent carry the id of the replica and are justified by their parents.
This file relates the test to what the replica has minted and certified.

The id of a received block is the id of its sender, which is not signed.  When
nobody sends blocks under the id of the replica that it did not mint, the three
blocks are its own.  When moreover the leaf is certified at the call, the three
blocks meet the commit rule of `update`, and the oldest of them was minted after
the leaf had last been genesis or a block of another replica.
-/

namespace Hotstuff

section Own

variable [WireTypes] [Externals]

namespace BlockStore

/-- The block is justified by its parent. -/
def Direct (store : BlockStore) (p : BlockPtr) : Prop :=
  (store.block p).getJustifyHash = (store.block p).getParentHash

omit [Externals] in
/-- What one level of the test looks at. -/
theorem supports_succ {store : BlockStore} {selfId : ReplicaID} {depth : Nat}
    {p : BlockPtr}
    (supports : store.supportsNonemptyChildProposal selfId (depth + 1) p =
      true) :
    (store.block p).proposer = selfId ∧ store.Direct p ∧
      ∃ parent, (store.block p).parentBlockPtr = some parent ∧
        store.supportsNonemptyChildProposal selfId depth parent = true := by
  unfold supportsNonemptyChildProposal at supports
  dsimp only at supports
  split at supports
  · cases supports
  rename_i own
  split at supports
  · cases supports
  split at supports
  · cases supports
  rename_i parent edge
  split at supports
  · cases supports
  rename_i direct
  exact ⟨(not_not.mp own).symm, not_not.mp direct, parent, edge, supports⟩

end BlockStore

namespace HotstuffCore

/-- The flag with which `do_propose` calls `get_next_vm_block`. -/
def asksNonempty (core : HotstuffCore) : Bool :=
  core.store.supportsNonemptyChildProposal core.selfId 3 core.bLeaf

/-- This replica has minted a block with the header. -/
def MintedHeader (core : HotstuffCore) (header : HotstuffBlockHeader) : Prop :=
  ∃ wireBlock ∈ core.proposedWires, wireBlock.header = header

instance decidableMintedHeader (core : HotstuffCore)
    (header : HotstuffBlockHeader) : Decidable (core.MintedHeader header) :=
  inferInstanceAs (Decidable (∃ wireBlock ∈ core.proposedWires, _))

/-- This replica has minted the block, which is not genesis. -/
def Minted (core : HotstuffCore) (p : BlockPtr) : Prop :=
  p ≠ 0 ∧ core.MintedHeader (core.block p).wireBlock.header

instance decidableMinted (core : HotstuffCore) (p : BlockPtr) :
    Decidable (core.Minted p) :=
  inferInstanceAs (Decidable (_ ∧ _))

/-- A block is only received under the id of the replica when the replica has
minted it. -/
def OwnIdGenuine (core : HotstuffCore) : Event → Prop
  | .receiveBlock wireBlock source =>
      source = core.selfId → core.MintedHeader wireBlock.header
  | _ => True

instance decidableOwnIdGenuine (core : HotstuffCore) :
    (event : Event) → Decidable (core.OwnIdGenuine event)
  | .receiveBlock _ _ => inferInstanceAs (Decidable (_ → _))
  | .insertBlock _ => inferInstanceAs (Decidable True)
  | .vote _ _ _ => inferInstanceAs (Decidable True)
  | .selfVote _ => inferInstanceAs (Decidable True)
  | .proposal _ _ => inferInstanceAs (Decidable True)
  | .doPropose _ => inferInstanceAs (Decidable True)
  | .doEmptyPropose _ => inferInstanceAs (Decidable True)
  | .garbageCollect => inferInstanceAs (Decidable True)

/-! ### Who a block is from -/

/-- The proposer and the header, which are set when a block object is made. -/
def origin (block : HotstuffBlock) : ReplicaID × HotstuffBlockHeader :=
  (block.proposer, block.wireBlock.header)

omit [Externals] in
theorem origin_flushFromMemory (block : HotstuffBlock) :
    origin (BlockStore.flushFromMemory block) = origin block := by
  unfold BlockStore.flushFromMemory
  split <;> rfl

theorem origin_commit (core : HotstuffCore) (commitQueue : List BlockPtr)
    (blk : BlockPtr) (qc : QuorumCertificate) (p : BlockPtr) :
    origin ((core.commit commitQueue blk qc).block p) =
      origin (core.block p) :=
  property_foldl_commitBlock (fun core => origin (core.block p))
    (fun core q => BlockStore.property_modifyBlock origin .markDecided
      (fun _ => rfl) core.store q p)
    core commitQueue.reverse

theorem origin_update (core : HotstuffCore) (nblk p : BlockPtr) :
    origin ((core.update nblk).block p) = origin (core.block p) := by
  have locked (blk2 blk1 : BlockPtr) :
      origin (((core.updateHqc blk2
          (core.block nblk).getJustifyQc).lockAndWrite blk1).block p) =
        origin (core.block p) := by
    have written := property_lockAndWrite origin (fun _ => rfl)
      (core.updateHqc blk2 (core.block nblk).getJustifyQc) blk1 p
    rwa [updateHqc_store] at written
  have outcome := update_result core nblk
  generalize core.update nblk = after at outcome ⊢
  cases outcome with
  | skip => rfl
  | certificate => rw [block, updateHqc_store, block]
  | lock => exact locked _ _
  | fail => exact locked _ _
  | commit => exact (origin_commit _ _ _ _ p).trans (locked _ _)

theorem origin_onReceiveVote (core : HotstuffCore) (cert : PartialCertificate)
    (q : BlockPtr) (voter : ReplicaID) (p : BlockPtr) :
    origin ((core.onReceiveVote cert q voter).block p) =
      origin (core.block p) := by
  have voted (extended : QuorumCertificate) :
      origin ((core.withVote q extended).block p) = origin (core.block p) :=
    BlockStore.property_modifyBlock origin (.withSelfQc extended)
      (fun _ => rfl) core.store q p
  rcases core.onReceiveVote_cases cert q voter with
    ⟨message, -, result⟩ | ⟨extended, -, ⟨-, -, result⟩ | result⟩ <;>
    rw [result]
  · rfl
  · change origin (((core.withVote q extended).updateHqc q extended).store.block
      p) = origin (core.block p)
    rw [updateHqc_store]
    exact voted extended
  · exact voted extended

theorem origin_mintedStore (core : HotstuffCore) (body : Body) (p : BlockPtr) :
    origin ((core.mintedStore body).1.block p) =
      if p = core.store.heap.length then origin (core.minted body)
      else origin (core.block p) := by
  rw [mintedStore, BlockStore.property_insertBlock origin fun _ _ _ _ => rfl,
    BlockStore.block_alloc]
  split <;> rfl

/-- What an event makes of the block objects: it keeps the origin of those that
exist and makes at most one, which is received or minted. -/
theorem origin_step {core : HotstuffCore} (tree : core.store.WellFormed)
    (event : Event) (p : BlockPtr) :
    origin ((core.step event).block p) = origin (core.block p) ∨
      p = core.store.heap.length ∧
        ((∃ wireBlock source, event = .receiveBlock wireBlock source ∧
          origin ((core.step event).block p) = (source, wireBlock.header)) ∨
        ∃ minted ∈ core.newProposals event,
          origin ((core.step event).block p) =
            (core.selfId, minted.header)) := by
  have proposed (nonemptyProposal : Bool) (body : Body) :
      origin ((core.proposeBody nonemptyProposal body).block p) =
          origin (core.block p) ∨
        p = core.store.heap.length ∧
          origin ((core.proposeBody nonemptyProposal body).block p) =
            (core.selfId, (core.minted body).wireBlock.header) := by
    rw [block, store_proposeBody, origin_mintedStore]
    split
    · rename_i new
      exact .inr ⟨new, rfl⟩
    · exact .inl rfl
  cases event with
  | receiveBlock wireBlock source =>
      have fresh := HotstuffBlock.property_validateHotstuff origin
        (fun _ _ => rfl) (HotstuffBlock.receiveBlock wireBlock source)
        core.config
      have allocated := BlockStore.block_alloc core.store
        ((HotstuffBlock.receiveBlock wireBlock source).validateHotstuff
          core.config).2 p
      change (core.step (.receiveBlock wireBlock source)).block p = _
        at allocated
      by_cases new : p = core.store.heap.length
      · rw [if_pos new] at allocated
        rw [allocated]
        exact .inr ⟨new, .inl ⟨wireBlock, source, rfl, fresh⟩⟩
      · rw [if_neg new] at allocated
        rw [allocated]
        exact .inl rfl
  | insertBlock q =>
      exact .inl (BlockStore.property_insertBlock origin (fun _ _ _ _ => rfl)
        core.store q p)
  | vote cert q voter => exact .inl (origin_onReceiveVote _ _ _ _ p)
  | selfVote q => exact .inl (origin_onReceiveVote _ _ _ _ p)
  | proposal q proposer =>
      rcases onReceiveProposal_cases tree q proposer with
        ⟨-, result⟩ | ⟨-, result⟩ <;> rw [step, result]
      · exact .inl (origin_update (core.castVote q proposer) q p)
      · exact .inl (origin_update core q p)
  | doPropose body =>
      rcases proposed core.asksNonempty body with same | ⟨new, minted⟩
      · exact .inl same
      · exact .inr ⟨new, .inr ⟨_, List.mem_singleton_self _, minted⟩⟩
  | doEmptyPropose body =>
      rcases proposed false body with same | ⟨new, minted⟩
      · exact .inl same
      · exact .inr ⟨new, .inr ⟨_, List.mem_singleton_self _, minted⟩⟩
  | garbageCollect =>
      exact .inl (BlockStore.property_runGc origin origin_flushFromMemory
        core.store p)

omit [Externals] in
theorem header_of_origin {first second : HotstuffBlock}
    (same : origin first = origin second) :
    first.wireBlock.header = second.wireBlock.header :=
  congrArg Prod.snd same

/-! ### Blocks under the own id -/

theorem Configured.selfId_ne_unknown {core : HotstuffCore}
    (configured : core.Configured) : core.selfId ≠ unknownReplica :=
  Nat.ne_of_lt (configured.idsSmall _ configured.self_mem)

/-- Every block under the own id is minted. -/
theorem minted_step {core : HotstuffCore} (anchored : core.Anchored)
    (own : ∀ p, (core.block p).proposer = core.selfId → core.Minted p)
    {event : Event} (genuine : core.OwnIdGenuine event) (p : BlockPtr)
    (mine : ((core.step event).block p).proposer = (core.step event).selfId) :
    (core.step event).Minted p := by
  have sends := anchored.sends_step event
  rw [sends.selfId] at mine
  have older {header : HotstuffBlockHeader}
      (known : core.MintedHeader header) :
      (core.step event).MintedHeader header := by
    obtain ⟨wireBlock, member, same⟩ := known
    rw [MintedHeader, sends.proposedWires]
    exact ⟨wireBlock, List.mem_append_right _ member, same⟩
  rcases origin_step anchored.tree event p with
    same | ⟨rfl, ⟨wireBlock, source, rfl, received⟩ |
      ⟨minted, member, made⟩⟩
  · rw [Minted, header_of_origin same]
    have known := own p ((congrArg Prod.fst same).symm.trans mine)
    exact ⟨known.1, older known.2⟩
  · have fromSelf : source = core.selfId :=
      (congrArg Prod.fst received).symm.trans mine
    have header : ((core.step (.receiveBlock wireBlock source)).block
        core.store.heap.length).wireBlock.header = wireBlock.header :=
      congrArg Prod.snd received
    rw [Minted, header]
    exact ⟨anchored.tree.nonempty.ne', older (genuine fromSelf)⟩
  · refine ⟨anchored.tree.nonempty.ne', minted, ?_,
      (congrArg Prod.snd made).symm⟩
    rw [sends.proposedWires]
    exact List.mem_append_left _ member

end HotstuffCore

variable {selfId : ReplicaID} {config : ReplicaConfig} {secretKey : SecretKey}

theorem minted_of_own_id
    (configured : (HotstuffCore.init selfId config secretKey).Configured)
    {core : HotstuffCore}
    (reachable : ((replicaSystem selfId config secretKey).restrict
      HotstuffCore.OwnIdGenuine).Reachable core) :
    ∀ p, (core.block p).proposer = core.selfId → core.Minted p := by
  refine reachable.invariant (fun core =>
    ∀ p, (core.block p).proposer = core.selfId → core.Minted p) ?_ ?_
  · rintro start rfl p mine
    have genesis : (HotstuffCore.init selfId config secretKey).block p =
        .genesisBlock := by
      cases p <;> rfl
    rw [genesis] at mine
    exact (configured.selfId_ne_unknown mine.symm).elim
  · intro core event reached own allowed p mine
    have operating :=
      operating_of_reachable configured reached.of_restrict
    exact HotstuffCore.minted_step operating.anchored own allowed.2 p mine

/-- When blocks are only received under the id of the replica that it has
minted, it asks for a non-empty body only on top of three blocks that it has
minted itself. -/
theorem nonempty_on_minted_blocks
    (configured : (HotstuffCore.init selfId config secretKey).Configured)
    {core : HotstuffCore}
    (reachable : ((replicaSystem selfId config secretKey).restrict
      HotstuffCore.OwnIdGenuine).Reachable core)
    (asks : core.asksNonempty = true) :
    ∃ parent grandparent,
      (core.block core.bLeaf).parentBlockPtr = some parent ∧
      (core.block parent).parentBlockPtr = some grandparent ∧
      core.Minted core.bLeaf ∧ core.Minted parent ∧
      core.Minted grandparent := by
  have own := minted_of_own_id configured reachable
  obtain ⟨leafOwn, -, parent, leafEdge, asks⟩ := BlockStore.supports_succ asks
  obtain ⟨parentOwn, -, grandparent, parentEdge, asks⟩ :=
    BlockStore.supports_succ asks
  obtain ⟨grandparentOwn, -, -⟩ := BlockStore.supports_succ asks
  exact ⟨parent, grandparent, leafEdge, parentEdge, own _ leafOwn,
    own _ parentOwn, own _ grandparentOwn⟩

/-! ### Blocks minted since the leaf was last somebody else's -/

namespace HotstuffCore

/-- The leaf is genesis or a block of another replica. -/
def ForeignLeaf (core : HotstuffCore) : Prop :=
  ¬ core.Minted core.bLeaf

instance decidableForeignLeaf (core : HotstuffCore) :
    Decidable core.ForeignLeaf :=
  inferInstanceAs (Decidable (¬ _))

/-- The headers minted since the leaf was last foreign, newest first. -/
def recentAfter (core : HotstuffCore) (event : Event)
    (recent : List HotstuffBlockHeader) : List HotstuffBlockHeader :=
  if (core.step event).ForeignLeaf then []
  else (core.newProposals event).map (·.header) ++ recent

/-- The certificates that the replica holds: the highest one, those in headers,
and those collected from votes. -/
def heldQcs (core : HotstuffCore) : List QuorumCertificate :=
  .ofWire core.hqc.2 :: core.store.heap.flatMap fun block =>
    [block.getJustifyQc, block.selfQc]

/-- The replica holds a verifying certificate on the hash. -/
def HoldsQc (core : HotstuffCore) (hash : Hash) : Prop :=
  ∃ qc ∈ core.heldQcs, qc.objHash = hash ∧
    qc.verify core.config = .ok true

/-- Among the recent blocks there is one that meets the commit rule of `update`
with two descendants on the chain of the leaf. -/
def RecentCommit (core : HotstuffCore) (recent : List HotstuffBlockHeader) :
    Prop :=
  ∃ x1 x2 x3 passed, core.store.Chain core.bLeaf passed x3 ∧
    (core.block x3).parentBlockPtr = some x2 ∧
    (core.block x2).parentBlockPtr = some x1 ∧
    x1 ≠ 0 ∧ (core.block x1).wireBlock.header ∈ recent ∧
    core.HoldsQc (core.store.hash x1) ∧ core.HoldsQc (core.store.hash x2) ∧
    core.HoldsQc (core.store.hash x3) ∧
    core.store.Direct x2 ∧ core.store.Direct x3

end HotstuffCore

/-- The runs of one replica, together with the recently minted headers. -/
def recentSystem (selfId : ReplicaID) (config : ReplicaConfig)
    (secretKey : SecretKey) :
    TransitionSystem (HotstuffCore × List HotstuffBlockHeader)
      HotstuffCore.Event where
  initial := fun state => state = (.init selfId config secretKey, [])
  enabled := fun state event => state.1.Enabled event
  next := fun state event =>
    (state.1.step event, state.1.recentAfter event state.2)

/-- Nobody sends blocks under the id of the replica that it did not mint. -/
def GenuineRecent (state : HotstuffCore × List HotstuffBlockHeader)
    (event : HotstuffCore.Event) : Prop :=
  state.1.OwnIdGenuine event

theorem reachable_of_recent {state : HotstuffCore × List HotstuffBlockHeader}
    (reachable : ((recentSystem selfId config secretKey).restrict
      GenuineRecent).Reachable state) :
    ((replicaSystem selfId config secretKey).restrict
      HotstuffCore.OwnIdGenuine).Reachable state.1 := by
  induction reachable with
  | initial start =>
      rw [start]
      exact .initial rfl
  | step _ allowed ih =>
      exact TransitionSystem.Reachable.step ih allowed

namespace HotstuffCore

/-- The header belongs to a block that was minted on a certified leaf. -/
def MintedDirect (core : HotstuffCore) (header : HotstuffBlockHeader) : Prop :=
  core.MintedHeader header ∧ header.qc.justify = header.parentHash

/-- Blocks that were minted on a certified leaf are at most one above the
highest certified block.  Those above it, and the highest certified block
itself, are recent; and with a recent block its parent is recent. -/
structure Recent (collisionFree : CollisionFree) (core : HotstuffCore)
    (recent : List HotstuffBlockHeader) : Prop where
  foreign : core.ForeignLeaf → recent = []
  bounded : ∀ header, core.MintedDirect header →
    (headerForest collisionFree).height (hashHeader header) ≤
      core.store.height core.hqc.1 + 1
  fresh : ∀ header, core.MintedDirect header →
    core.store.height core.hqc.1 <
        (headerForest collisionFree).height (hashHeader header) →
      header ∈ recent
  certified : ∀ header, core.MintedDirect header →
    hashHeader header = core.store.hash core.hqc.1 → header ∈ recent
  closed : ∀ header parent, core.MintedDirect header →
    core.MintedDirect parent → header ∈ recent →
    header.parentHash = hashHeader parent → parent ∈ recent

variable {collisionFree : CollisionFree}

theorem recent_init (selfId : ReplicaID) (config : ReplicaConfig)
    (secretKey : SecretKey) :
    Recent collisionFree (.init selfId config secretKey) [] := by
  have none : ∀ header,
      ¬ MintedDirect (.init selfId config secretKey) header := by
    rintro header ⟨⟨wireBlock, member, -⟩, -⟩
    cases member
  constructor
  · intro _
    rfl
  · intro header minted
    exact (none header minted).elim
  · intro header minted
    exact (none header minted).elim
  · intro header minted
    exact (none header minted).elim
  · intro header parent minted
    exact (none header minted).elim

omit [Externals] in
theorem mintedDirect_congr {core after : HotstuffCore}
    (wires : after.proposedWires = core.proposedWires)
    (header : HotstuffBlockHeader) :
    after.MintedDirect header ↔ core.MintedDirect header := by
  rw [MintedDirect, MintedDirect, MintedHeader, MintedHeader, wires]

theorem foreignLeaf_congr {core after : HotstuffCore}
    (longer : core.store.Extends after.store)
    (placed : core.store.Placed core.bLeaf) (tree : core.store.WellFormed)
    (leaf : after.bLeaf = core.bLeaf)
    (wires : after.proposedWires = core.proposedWires) :
    after.ForeignLeaf ↔ core.ForeignLeaf := by
  have header :=
    (longer.identity core.bLeaf (tree.lt_of_placed placed)).2.1
  rw [ForeignLeaf, ForeignLeaf, Minted, Minted, MintedHeader, MintedHeader,
    leaf, wires, block, block, header]

section Steps

variable {core after : HotstuffCore} {headers : List HotstuffBlockHeader}

theorem Recent.stays (recent : core.Recent collisionFree headers)
    (valid : core.Valid collisionFree)
    (longer : core.store.Extends after.store)
    (leaf : after.bLeaf = core.bLeaf) (hqc : after.hqc = core.hqc)
    (wires : after.proposedWires = core.proposedWires) :
    after.Recent collisionFree headers := by
  have sameMinted := mintedDirect_congr wires
  have height : after.store.height after.hqc.1 =
      core.store.height core.hqc.1 := by
    rw [hqc, longer.height valid.hqcPlaced]
  have hash : after.store.hash after.hqc.1 = core.store.hash core.hqc.1 := by
    rw [hqc, longer.hash valid.hqcPlaced]
  constructor
  · intro foreign
    exact recent.foreign ((foreignLeaf_congr longer valid.leafPlaced valid.tree
      leaf wires).mp foreign)
  · intro header minted
    rw [height]
    exact recent.bounded header ((sameMinted header).mp minted)
  · intro header minted above
    rw [height] at above
    exact recent.fresh header ((sameMinted header).mp minted) above
  · intro header minted same
    rw [hash] at same
    exact recent.certified header ((sameMinted header).mp minted) same
  · intro header parent minted mintedParent member edge
    exact recent.closed header parent ((sameMinted header).mp minted)
      ((sameMinted parent).mp mintedParent) member edge

/-- A new highest certificate.  If it is for an own block minted on a certified
leaf, that block was above the previous one, hence recent. -/
theorem Recent.certify (recent : core.Recent collisionFree headers)
    (valid : core.Valid collisionFree)
    (longer : core.store.Extends after.store) {q : BlockPtr}
    (placed : core.store.Placed q)
    (higher : core.store.height core.hqc.1 < core.store.height q)
    (leaf : after.bLeaf = q) (hqc : after.hqc.1 = q)
    (wires : after.proposedWires = core.proposedWires) :
    after.Recent collisionFree (if after.ForeignLeaf then [] else headers) := by
  have sameMinted := mintedDirect_congr wires
  have height : after.store.height after.hqc.1 = core.store.height q := by
    rw [hqc, longer.height placed]
  have hash : after.store.hash after.hqc.1 = core.store.hash q := by
    rw [hqc, longer.hash placed]
  have bounded : ∀ header, after.MintedDirect header →
      (headerForest collisionFree).height (hashHeader header) ≤
        core.store.height q := by
    intro header minted
    have old := recent.bounded header ((sameMinted header).mp minted)
    omega
  have nothingAbove : ∀ header, after.MintedDirect header →
      ¬ after.store.height after.hqc.1 <
        (headerForest collisionFree).height (hashHeader header) := by
    intro header minted above
    have old := bounded header minted
    omega
  constructor
  · intro foreign
    rw [if_pos foreign]
  · intro header minted
    rw [height]
    exact (bounded header minted).trans (Nat.le_succ _)
  · intro header minted above
    exact (nothingAbove header minted above).elim
  · intro header minted same
    rw [hash] at same
    have wasFresh := recent.fresh header ((sameMinted header).mp minted) (by
      rw [same, valid.tree.height_eq collisionFree placed]
      exact higher)
    rw [if_neg]
    · exact wasFresh
    -- The certified block is the minted one, so the leaf is not foreign.
    have notGenesis : q ≠ 0 := by
      rintro rfl
      rw [valid.tree.genesis_height] at higher
      omega
    have bound := valid.tree.lt_of_placed placed
    have sameHeader : (after.block q).wireBlock.header = header := by
      apply collisionFree.injective
      rw [block, (longer.identity q bound).2.1, same,
        (valid.tree.hashed q notGenesis bound).1]
    rw [ForeignLeaf, leaf, Minted, sameHeader]
    exact not_not_intro ⟨notGenesis, minted.1⟩
  · intro header parent minted mintedParent member edge
    by_cases foreign : after.ForeignLeaf
    · rw [if_pos foreign] at member
      cases member
    · rw [if_neg foreign] at member ⊢
      exact recent.closed header parent ((sameMinted header).mp minted)
        ((sameMinted parent).mp mintedParent) member edge

/-- A block minted on a certified leaf is one above the highest certified
block. -/
theorem Valid.height_mintedDirect (valid : core.Valid collisionFree)
    (body : Body)
    (direct : core.hqc.2.justify = core.store.hash core.bLeaf) :
    (headerForest collisionFree).height
        (hashHeader (core.minted body).wireBlock.header) =
      core.store.height core.hqc.1 + 1 := by
  have edge := headerForest_parent collisionFree
    (core.minted body).wireBlock.header
  have parentHash : (core.minted body).wireBlock.header.parentHash =
      core.store.hash core.hqc.1 := direct.symm.trans valid.hqcHash
  rw [parentHash] at edge
  rw [ParentForest.height_child edge
    (valid.tree.rooted collisionFree valid.hqcPlaced),
    valid.tree.height_eq collisionFree valid.hqcPlaced]

theorem Recent.mint (recent : core.Recent collisionFree headers)
    (valid : core.Valid collisionFree) (nonemptyProposal : Bool)
    (body : Body) :
    (core.proposeBody nonemptyProposal body).Recent collisionFree
        ((core.minted body).wireBlock.header :: headers) ∧
      ¬ (core.proposeBody nonemptyProposal body).ForeignLeaf := by
  have wires : (core.proposeBody nonemptyProposal body).proposedWires =
      (core.minted body).wireBlock :: core.proposedWires :=
    (valid.anchored.sends_proposeBody nonemptyProposal body).proposedWires
  have longer := (valid.anchored.gains_proposeBody nonemptyProposal body).longer
  have hqc : (core.proposeBody nonemptyProposal body).hqc = core.hqc := by
    rw [valid.anchored.proposeBody_eq]
  have leaf : (core.proposeBody nonemptyProposal body).bLeaf =
      core.store.heap.length := by
    rw [valid.anchored.proposeBody_eq]
  have header : ((core.proposeBody nonemptyProposal body).block
      core.store.heap.length).wireBlock.header =
        (core.minted body).wireBlock.header := by
    apply header_of_origin
    rw [block, store_proposeBody, origin_mintedStore, if_pos rfl]
  have own : ¬ (core.proposeBody nonemptyProposal body).ForeignLeaf := by
    rw [ForeignLeaf, leaf, Minted, MintedHeader, wires, header]
    exact not_not_intro
      ⟨valid.tree.nonempty.ne', _, List.mem_cons_self, rfl⟩
  have cases : ∀ other,
      (core.proposeBody nonemptyProposal body).MintedDirect other →
        (other = (core.minted body).wireBlock.header ∧
          core.hqc.2.justify = core.store.hash core.bLeaf) ∨
        core.MintedDirect other := by
    rintro other ⟨⟨wireBlock, member, rfl⟩, direct⟩
    rw [wires] at member
    rcases List.mem_cons.mp member with rfl | old
    · exact .inl ⟨rfl, direct⟩
    · exact .inr ⟨⟨wireBlock, old, rfl⟩, direct⟩
  refine ⟨⟨fun foreign => (own foreign).elim, ?_, ?_, ?_, ?_⟩, own⟩
  · intro other minted
    rw [hqc, longer.height valid.hqcPlaced]
    rcases cases other minted with ⟨rfl, direct⟩ | old
    · exact Nat.le_of_eq (valid.height_mintedDirect body direct)
    · exact recent.bounded other old
  · intro other minted above
    rw [hqc, longer.height valid.hqcPlaced] at above
    rcases cases other minted with ⟨rfl, -⟩ | old
    · exact List.mem_cons_self
    · exact List.mem_cons_of_mem _ (recent.fresh other old above)
  · intro other minted same
    rw [hqc, longer.hash valid.hqcPlaced] at same
    rcases cases other minted with ⟨rfl, -⟩ | old
    · exact List.mem_cons_self
    · exact List.mem_cons_of_mem _ (recent.certified other old same)
  · -- The parent of the new block is the highest certified block.
    intro other parent minted mintedParent member edge
    rcases cases parent mintedParent with ⟨rfl, -⟩ | oldParent
    · exact List.mem_cons_self
    apply List.mem_cons_of_mem
    rcases cases other minted with ⟨rfl, direct⟩ | old
    · apply recent.certified parent oldParent
      rw [← edge, ← valid.hqcHash]
      exact direct.symm
    · rcases List.mem_cons.mp member with rfl | older
      · apply recent.certified parent oldParent
        rw [← edge, ← valid.hqcHash]
        exact old.2.symm
      · exact recent.closed other parent old oldParent older edge

end Steps

theorem Recent.step {core : HotstuffCore} {headers : List HotstuffBlockHeader}
    (recent : core.Recent collisionFree headers)
    (valid : core.Valid collisionFree) {event : Event}
    (enabled : core.Enabled event) :
    (core.step event).Recent collisionFree
      (core.recentAfter event headers) := by
  have longer := (valid.anchored.gains_step enabled).longer
  have sends := valid.anchored.sends_step event
  have nothingNew (idle : MintsNothing core (core.step event)) :
      core.recentAfter event headers =
        if (core.step event).ForeignLeaf then [] else headers := by
    have noProposal : core.newProposals event = [] := by
      apply List.self_eq_append_left.mp
      rw [← sends.proposedWires, idle.proposedWires]
    rw [recentAfter, noProposal]
    rfl
  rcases leafMoves_step valid.tree event with
    ⟨leaf, hqc, idle⟩ | ⟨placed, higher, leaf, hqc, idle⟩ |
      ⟨nonemptyProposal, body, proposes, result⟩
  · have kept := recent.stays valid longer leaf hqc idle.proposedWires
    rw [nothingNew idle]
    split
    · rename_i foreign
      rwa [kept.foreign foreign] at kept
    · exact kept
  · rw [nothingNew idle]
    exact recent.certify valid longer placed higher leaf hqc
      idle.proposedWires
  · obtain ⟨minted, own⟩ := recent.mint valid nonemptyProposal body
    have newBlock : core.newProposals event =
        [(core.minted body).wireBlock] := by
      rcases proposes with rfl | rfl <;> rfl
    rw [recentAfter, newBlock, result, if_neg own]
    exact minted

/-! ### The certificates on the three blocks -/

theorem Anchored.holdsQc_hqc {core : HotstuffCore}
    (anchored : core.Anchored) : core.HoldsQc core.hqc.2.justify :=
  ⟨_, List.mem_cons_self, QuorumCertificate.objHash_ofWire _,
    anchored.hqcVerified⟩

/-- A linked block that is justified by its parent brings a certificate on
it. -/
theorem Anchored.holdsQc_parent {core : HotstuffCore}
    (anchored : core.Anchored) {p parent : BlockPtr}
    (edge : (core.block p).parentBlockPtr = some parent)
    (direct : core.store.Direct p) :
    core.HoldsQc (core.store.hash parent) := by
  have linked : (core.block p).Linked := by
    rw [HotstuffBlock.Linked, edge]
    rfl
  have notGenesis := anchored.tree.ne_zero_of_linked linked
  have bound := BlockStore.WellFormed.lt_of_linked linked
  have parsed : (core.block p).getJustifyQc =
      .ofWire (core.block p).wireBlock.header.qc := by
    rw [HotstuffBlock.getJustifyQc, block,
      (anchored.tree.hashed p notGenesis bound).2]
    rfl
  refine ⟨(core.block p).getJustifyQc, ?_, ?_, ?_⟩
  · apply List.mem_cons_of_mem
    have member : core.block p ∈ core.store.heap := by
      rw [block, BlockStore.block, List.getD_eq_getElem?_getD,
        List.getElem?_eq_getElem bound]
      exact List.getElem_mem bound
    exact List.mem_flatMap.mpr ⟨_, member, List.mem_cons_self⟩
  · rw [(anchored.tree.parent_stored edge).2.2]
    exact direct
  · rw [parsed]
    exact anchored.verified p notGenesis bound

/-- A minted block that is justified by its parent. -/
theorem Minted.mintedDirect {core : HotstuffCore} {p : BlockPtr}
    (minted : core.Minted p) (tree : core.store.WellFormed)
    (linked : (core.block p).Linked) (direct : core.store.Direct p) :
    core.MintedDirect (core.block p).wireBlock.header := by
  have justify := tree.getJustifyHash_eq (tree.ne_zero_of_linked linked)
    (BlockStore.WellFormed.lt_of_linked linked)
  exact ⟨minted.2, justify.symm.trans direct⟩

end HotstuffCore

theorem recent_of_reachable (collisionFree : CollisionFree)
    (configured : (HotstuffCore.init selfId config secretKey).Configured)
    {state : HotstuffCore × List HotstuffBlockHeader}
    (reachable : ((recentSystem selfId config secretKey).restrict
      GenuineRecent).Reachable state) :
    state.1.Recent collisionFree state.2 := by
  refine reachable.invariant
    (fun state => state.1.Recent collisionFree state.2) ?_ ?_
  · rintro start rfl
    exact HotstuffCore.recent_init _ _ _
  · intro state event reached recent allowed
    have replica := replicaReached_of_reachable collisionFree configured
      (reachable_of_recent reached).of_restrict
    exact recent.step replica.valid allowed.1

/-- When hashes do not collide, blocks are only received under the id of the
replica that it has minted, and the leaf is certified at the call, then the
replica asks for a non-empty body only when a block that it has minted since the
leaf was last foreign meets the commit rule. -/
theorem nonempty_after_recent_commit (collisionFree : CollisionFree)
    (configured : (HotstuffCore.init selfId config secretKey).Configured)
    {core : HotstuffCore} {headers : List HotstuffBlockHeader}
    (reachable : ((recentSystem selfId config secretKey).restrict
      GenuineRecent).Reachable (core, headers))
    (leafCertified : core.hqc.2.justify = core.store.hash core.bLeaf)
    (asks : core.asksNonempty = true) : core.RecentCommit headers := by
  have replica := replicaReached_of_reachable collisionFree configured
    (reachable_of_recent reachable).of_restrict
  have anchored := replica.valid.anchored
  have tree := anchored.tree
  have recent := recent_of_reachable collisionFree configured reachable
  have own := minted_of_own_id configured (reachable_of_recent reachable)
  obtain ⟨own3, direct3, x2, edge3, asks⟩ := BlockStore.supports_succ asks
  obtain ⟨own2, direct2, x1, edge2, asks⟩ := BlockStore.supports_succ asks
  obtain ⟨own1, direct1, x0, edge1, -⟩ := BlockStore.supports_succ asks
  have linked {p parent : BlockPtr}
      (edge : (core.store.block p).parentBlockPtr = some parent) :
      (core.block p).Linked := by
    rw [HotstuffBlock.Linked, HotstuffCore.block, edge]
    rfl
  have hashed {p parent : BlockPtr}
      (edge : (core.store.block p).parentBlockPtr = some parent) :
      core.store.hash p = hashHeader (core.block p).wireBlock.header :=
    (tree.hashed p (tree.ne_zero_of_linked (linked edge))
      (BlockStore.WellFormed.lt_of_linked (linked edge))).1
  have minted3 := (own _ own3).mintedDirect tree (linked edge3) direct3
  have minted2 := (own _ own2).mintedDirect tree (linked edge2) direct2
  have minted1 := (own _ own1).mintedDirect tree (linked edge1) direct1
  -- The leaf is the highest certified block, hence recent, and so are its
  -- parent and grandparent.
  have recent3 : (core.block core.bLeaf).wireBlock.header ∈ headers := by
    apply recent.certified _ minted3
    rw [← hashed edge3, ← leafCertified, anchored.hqcHash]
  have recent2 : (core.block x2).wireBlock.header ∈ headers := by
    apply recent.closed _ _ minted3 minted2 recent3
    rw [← hashed edge2]
    exact (tree.parent_stored edge3).2.2.symm
  have recent1 : (core.block x1).wireBlock.header ∈ headers := by
    apply recent.closed _ _ minted2 minted1 recent2
    rw [← hashed edge1]
    exact (tree.parent_stored edge2).2.2.symm
  refine ⟨x1, x2, core.bLeaf, [], .here _, edge3, edge2, (own _ own1).1,
    recent1, anchored.holdsQc_parent edge2 direct2,
    anchored.holdsQc_parent edge3 direct3, ?_, direct2, direct3⟩
  rw [← leafCertified]
  exact anchored.holdsQc_hqc

end Own

/-! ### Concrete runs -/

namespace Symbolic

open scoped Symbolic

/-- Replica `0` processes its own proposal and collects a quorum of votes. -/
def votesOn (core : HotstuffCore) (p : BlockPtr) : List HotstuffCore.Event :=
  [.proposal p 0, .selfVote p, .vote (voteOf 1 (core.store.hash p)) p 1,
    .vote (voteOf 2 (core.store.hash p)) p 2]

/-- Replica `0` after a list of events. -/
def replicaZero (events : List HotstuffCore.Event) : HotstuffCore :=
  (replicaSystem 0 fourReplicas (0 : Nat)).run
    (.init 0 fourReplicas (0 : Nat)) events

/-- Replica `0` proposes the given number of blocks, each after the previous one
was certified, and collects a quorum for the last one. -/
def ownChain : Nat → List HotstuffCore.Event
  | 0 => []
  | length + 1 =>
      let proposed := ownChain length ++ [.doPropose []]
      proposed ++ votesOn (replicaZero proposed) (length + 1)

/-- A certificate of the replicas other than `0`. -/
def othersQc (hash : Hash) : QuorumCertificateWire where
  justify := hash
  bmp := 14
  sigs := [cryptoSign hash (1 : Nat), cryptoSign hash (2 : Nat),
    cryptoSign hash (3 : Nat)]

/-- A chain of empty blocks in which each block certifies its parent. -/
def othersChain (wireBlock : HotstuffBlockWire) :
    Nat → List HotstuffBlockWire
  | 0 => []
  | length + 1 =>
      let hash := hashHeader wireBlock.header
      wireBlock :: othersChain (blockOn hash (othersQc hash) []) length

/-- Replica `0` receives a chain of four blocks under its own id. -/
def spoofed : List HotstuffCore.Event :=
  ((othersChain Fork.b1 4).zipIdx 1).flatMap fun (wireBlock, p) =>
    [.receiveBlock wireBlock 0, .insertBlock p, .proposal p 0]

instance decidableRecentEnabled (selfId : ReplicaID) (config : ReplicaConfig)
    (secretKey : SecretKey) (state : HotstuffCore × List HotstuffBlockHeader)
    (event : HotstuffCore.Event) :
    Decidable ((recentSystem selfId config secretKey).enabled state event) :=
  HotstuffCore.decidableEnabled state.1 event

instance decidableGenuineRecent
    (state : HotstuffCore × List HotstuffBlockHeader)
    (event : HotstuffCore.Event) : Decidable (GenuineRecent state event) :=
  HotstuffCore.decidableOwnIdGenuine state.1 event

end Symbolic

open scoped Symbolic

theorem nonempty_on_own_chain :
    ∃ core, ((replicaSystem 0 Symbolic.fourReplicas (0 : Nat)).restrict
        HotstuffCore.OwnIdGenuine).Reachable core ∧
      core.asksNonempty = true ∧
      ∃ parent grandparent,
        (core.block core.bLeaf).parentBlockPtr = some parent ∧
        (core.block parent).parentBlockPtr = some grandparent ∧
        core.Minted grandparent := by
  let system := (replicaSystem 0 Symbolic.fourReplicas (0 : Nat)).restrict
    HotstuffCore.OwnIdGenuine
  have reachable : system.Reachable (system.run
      (.init 0 Symbolic.fourReplicas (0 : Nat)) (Symbolic.ownChain 3)) := by
    refine .run (.initial rfl) ?_
    decide +kernel
  have asks : (system.run (.init 0 Symbolic.fourReplicas (0 : Nat))
      (Symbolic.ownChain 3)).asksNonempty = true := by
    decide +kernel
  obtain ⟨parent, grandparent, leafEdge, parentEdge, -, -, minted⟩ :=
    nonempty_on_minted_blocks (Symbolic.init_configured 0 (by decide))
      reachable asks
  exact ⟨_, reachable, asks, parent, grandparent, leafEdge, parentEdge, minted⟩

/-- A replica that has minted nothing asks for a non-empty body. -/
theorem nonempty_on_spoofed_blocks :
    (replicaSystem 0 Symbolic.fourReplicas (0 : Nat)).Reachable
        (Symbolic.replicaZero Symbolic.spoofed) ∧
      (Symbolic.replicaZero Symbolic.spoofed).asksNonempty = true ∧
      (Symbolic.replicaZero Symbolic.spoofed).proposedWires = [] := by
  refine ⟨.run (.initial rfl) ?_, ?_, ?_⟩ <;> decide +kernel

theorem nonempty_after_own_chain :
    ∃ core headers,
      ((recentSystem 0 Symbolic.fourReplicas (0 : Nat)).restrict
        GenuineRecent).Reachable (core, headers) ∧
      core.asksNonempty = true ∧ core.RecentCommit headers := by
  let system := (recentSystem 0 Symbolic.fourReplicas (0 : Nat)).restrict
    GenuineRecent
  have reachable : system.Reachable (system.run
      (.init 0 Symbolic.fourReplicas (0 : Nat), []) (Symbolic.ownChain 3)) := by
    refine .run (.initial rfl) ?_
    decide +kernel
  refine ⟨_, _, reachable, ?_, nonempty_after_recent_commit
    Symbolic.collisionFree (Symbolic.init_configured 0 (by decide)) reachable
    ?_ ?_⟩ <;> decide +kernel

/-- Replica `0` proposes a third block after two certified ones and then calls
`do_propose` again, without a certificate on the third block. -/
theorem nonempty_without_commit :
    ∃ core headers,
      ((recentSystem 0 Symbolic.fourReplicas (0 : Nat)).restrict
        GenuineRecent).Reachable (core, headers) ∧
      core.asksNonempty = true ∧ ¬ core.RecentCommit headers := by
  let system := (recentSystem 0 Symbolic.fourReplicas (0 : Nat)).restrict
    GenuineRecent
  obtain ⟨core, headers, reachable, asks, length, parent0, parent1, parent2,
      uncertified⟩ : ∃ core headers,
      system.Reachable (core, headers) ∧ core.asksNonempty = true ∧
      core.store.heap.length = 4 ∧
      (core.block 0).parentBlockPtr = none ∧
      (core.block 1).parentBlockPtr = some 0 ∧
      (core.block 2).parentBlockPtr = some 1 ∧
      ∀ qc ∈ core.heldQcs, qc.objHash = core.store.hash 3 →
        qc.verify core.config ≠ .ok true := by
    have reachable : system.Reachable (system.run
        (.init 0 Symbolic.fourReplicas (0 : Nat), [])
        (Symbolic.ownChain 2 ++ [.doPropose []])) := by
      refine .run (.initial rfl) ?_
      decide +kernel
    refine ⟨_, _, reachable, ?_, ?_, ?_, ?_, ?_, ?_⟩ <;> decide +kernel
  refine ⟨core, headers, reachable, asks, ?_⟩
  rintro ⟨x1, x2, x3, passed, -, edge3, edge2, notGenesis, -, -, -, held, -⟩
  have bound : x3 < 4 := by
    rw [← length]
    apply BlockStore.WellFormed.lt_of_linked
    rw [HotstuffBlock.Linked, ← HotstuffCore.block, edge3]
    rfl
  interval_cases x3
  · rw [parent0] at edge3
    cases edge3
  · obtain rfl : 0 = x2 := Option.some.inj (parent1.symm.trans edge3)
    rw [parent0] at edge2
    cases edge2
  · obtain rfl : 1 = x2 := Option.some.inj (parent2.symm.trans edge3)
    obtain rfl : 0 = x1 := Option.some.inj (parent1.symm.trans edge2)
    exact notGenesis rfl
  · obtain ⟨qc, member, same, verified⟩ := held
    exact uncertified qc member same verified

end Hotstuff
