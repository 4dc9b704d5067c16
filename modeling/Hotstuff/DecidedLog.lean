import Hotstuff.CrashRecovery

/-!
# The references and the decided log of one replica

How the highest certificate, the lock, the last executed block and the index of
decided blocks move along the runs of one replica.  No other replica is assumed
to be correct, and nothing is assumed about the hash function; the only
condition is that blocks justify lower blocks, which keeps the lock below the
highest certificate.

The runs include the events after which the replica has stopped with the
exception of `update`.
-/

namespace Hotstuff

section Log

variable [WireTypes] [Externals]

namespace HotstuffCore

/-- The storage that the effects so far have produced. -/
def disk (core : HotstuffCore) : Disk := .ofTrace core.trace

/-- The row of the index for a block. -/
def indexRow (store : BlockStore) (p : BlockPtr) : Nat × Hash :=
  (store.height p, store.hash p)

/-! ### Steps without a transaction -/

/-- The effects in between complete no transaction. -/
def Uncommitted (core after : HotstuffCore) : Prop :=
  ∃ effects, after.trace = effects ++ core.trace ∧ Uncommitting effects

omit [Externals] in
theorem Uncommitted.trans {first second third : HotstuffCore}
    (upper : Uncommitted first second) (lower : Uncommitted second third) :
    Uncommitted first third := by
  obtain ⟨effects, traceEq, silent⟩ := upper
  obtain ⟨effects', traceEq', silent'⟩ := lower
  refine ⟨effects' ++ effects, ?_, ?_⟩
  · rw [traceEq', traceEq, List.append_assoc]
  · intro effect member
    exact (List.mem_append.mp member).elim (silent' effect) (silent effect)

omit [Externals] in
theorem Uncommitted.disk {core after : HotstuffCore}
    (uncommitted : Uncommitted core after) :
    after.disk.decidedHashIndex = core.disk.decidedHashIndex ∧
      after.disk.qcOnTopBlock = core.disk.qcOnTopBlock := by
  obtain ⟨effects, traceEq, silent⟩ := uncommitted
  rw [HotstuffCore.disk, traceEq]
  exact Disk.ofTrace_append silent core.trace

omit [Externals] in
theorem Calm.uncommitted {core after : HotstuffCore}
    (calm : Calm core after) : Uncommitted core after := by
  obtain ⟨effects, traceEq, silent⟩ := calm
  refine ⟨effects, traceEq, ?_⟩
  intro effect member
  obtain ⟨-, noTxn⟩ := silent effect member
  cases effect with
  | commitTxn => cases noTxn
  | _ => rfl

/-! ### What one step does to the references and the index -/

/-- The index stays, or one transaction adds the blocks between the old and the
new last executed block. -/
inductive LogMoves (core after : HotstuffCore) : Prop
  | keep (bExec : after.bExec = core.bExec)
      (index : after.disk.decidedHashIndex = core.disk.decidedHashIndex)
      (qc : after.disk.qcOnTopBlock = core.disk.qcOnTopBlock)
  | commit {commitQueue : List BlockPtr} {qc : QuorumCertificate}
      (placed : core.store.Placed after.bExec)
      (chain : core.store.Chain after.bExec commitQueue core.bExec)
      (index : after.disk.decidedHashIndex =
        (commitQueue.reverse.map (indexRow core.store)).foldl
          (fun index entry => index.put entry.1 entry.2)
          core.disk.decidedHashIndex)
      (top : after.disk.qcOnTopBlock = some qc.serialize)
      (certifies : core.Certifies qc after.bExec)

/-- What every step does. -/
structure Advances (core after : HotstuffCore) : Prop where
  longer : core.store.Extends after.store
  hqcHeight :
    core.store.height core.hqc.1 ≤ after.store.height after.hqc.1
  lockHeight :
    core.store.height core.bLock ≤ after.store.height after.bLock
  lockChoice : after.bLock = core.bLock ∨
    ∃ blk2, (after.block blk2).justifyBlockPtr = some after.bLock ∧
      after.store.height blk2 ≤ after.store.height after.hqc.1
  log : LogMoves core after

theorem LogMoves.of_calm {core after : HotstuffCore} (calm : Calm core after)
    (bExec : after.bExec = core.bExec) : LogMoves core after :=
  .keep bExec calm.uncommitted.disk.1 calm.uncommitted.disk.2

/-- Nothing but the tree changes. -/
theorem Advances.idle {core after : HotstuffCore} (anchored : core.Anchored)
    (longer : core.store.Extends after.store)
    (calm : Calm core after) (hqc : after.hqc.1 = core.hqc.1)
    (bLock : after.bLock = core.bLock) (bExec : after.bExec = core.bExec) :
    Advances core after where
  longer := longer
  hqcHeight := by
    rw [hqc, longer.height anchored.hqcPlaced]
  lockHeight := by
    rw [bLock, longer.height anchored.lockPlaced]
  lockChoice := .inl bLock
  log := .of_calm calm bExec

/-- The certificate is afterwards at least as high as before, and at least as
high as the block whose certificate was offered. -/
theorem height_hqc_updateHqc (core : HotstuffCore) (qcBlock : BlockPtr)
    (qc : QuorumCertificate) :
    core.store.height core.hqc.1 ≤
        core.store.height (core.updateHqc qcBlock qc).hqc.1 ∧
      core.store.height qcBlock ≤
        core.store.height (core.updateHqc qcBlock qc).hqc.1 := by
  rcases updateHqc_cases core qcBlock qc with
    ⟨higher, effects, -, result⟩ | ⟨notHigher, result⟩ <;> rw [result]
  · exact ⟨higher.le, Nat.le_refl _⟩
  · exact ⟨Nat.le_refl _, notHigher⟩

theorem advances_updateHqc (core : HotstuffCore) (qcBlock : BlockPtr)
    (qc : QuorumCertificate) :
    Advances core (core.updateHqc qcBlock qc) where
  longer := by
    rw [updateHqc_store]
    exact .refl core.store
  hqcHeight := by
    rw [updateHqc_store]
    exact (core.height_hqc_updateHqc qcBlock qc).1
  lockHeight := by
    rw [updateHqc_store, updateHqc_bLock]
  lockChoice := .inl (updateHqc_bLock core qcBlock qc)
  log := .of_calm (core.calm_updateHqc qcBlock qc)
    (updateHqc_bExec core qcBlock qc)

/-- The middle of `update`: the lock moves at most to the justify block of a
block that the highest certificate has reached. -/
theorem advances_lock {core : HotstuffCore} {blk2 blk1 : BlockPtr}
    (names1 : (core.block blk2).justifyBlockPtr = some blk1)
    (qc : QuorumCertificate) :
    Advances core ((core.updateHqc blk2 qc).lockAndWrite blk1) := by
  have same := (core.updateHqc blk2 qc).sameTree_lockAndWrite blk1
  rw [updateHqc_store] at same
  obtain ⟨higher, raised, choice⟩ :=
    (core.updateHqc blk2 qc).raisedLock_cases blk1
  rw [updateHqc_store, updateHqc_bLock] at higher
  rw [updateHqc_bLock] at choice
  obtain ⟨hqcHigher, hqcReaches⟩ := core.height_hqc_updateHqc blk2 qc
  constructor
  · exact same.extends
  · rw [same.height]
    exact hqcHigher
  · rw [same.height]
    exact higher
  · rcases choice with moved | stayed
    · refine .inr ⟨blk2, ?_, ?_⟩
      · rw [block, same.justifyBlockPtr]
        exact names1.trans (congrArg some moved.symm)
      · rw [same.height, same.height]
        exact hqcReaches
    · exact .inl stayed
  · exact .of_calm ((core.calm_updateHqc blk2 qc).trans
      (calm_lockAndWrite _ blk1)) (updateHqc_bExec core blk2 qc)

theorem Advances.fail {core after : HotstuffCore}
    (advances : Advances core after) (failure : Failure) :
    Advances core (after.fail failure) :=
  ⟨advances.longer, advances.hqcHeight, advances.lockHeight,
    advances.lockChoice, by
      cases advances.log with
      | keep bExec index qc => exact .keep bExec index qc
      | commit placed chain index top certifies =>
          exact .commit placed chain index top certifies⟩

/-- The end of `update`: the queue becomes one transaction. -/
theorem Anchored.advances_commit {core : HotstuffCore}
    (anchored : core.Anchored) {blk2 blk1 blk : BlockPtr}
    {commitQueue : List BlockPtr} (hqc qc : QuorumCertificate)
    (names1 : (core.block blk2).justifyBlockPtr = some blk1)
    (parent1 : (core.block blk1).parentBlockPtr = some blk)
    (names : (core.block blk1).justifyBlockPtr = some blk)
    (walked : core.store.walk (core.store.height core.bExec)
      (core.store.height blk) blk = some (commitQueue, core.bExec))
    (certifies : core.Certifies qc blk) :
    Advances core (((core.updateHqc blk2 hqc).lockAndWrite blk1).commit
      commitQueue blk qc) := by
  have locked := advances_lock names1 hqc
  have calm := (core.calm_updateHqc blk2 hqc).trans (calm_lockAndWrite _ blk1)
  have same := (core.updateHqc blk2 hqc).sameTree_lockAndWrite blk1
  rw [updateHqc_store] at same
  have ready : ((core.updateHqc blk2 hqc).lockAndWrite blk1).CommitReady
      commitQueue blk := anchored.commitReady hqc names parent1 walked
  generalize (core.updateHqc blk2 hqc).lockAndWrite blk1 = middle at *
  have nodup := (same.wellFormed anchored.tree).chain_nodup ready.chain
  have bound : ∀ p ∈ commitQueue, p < middle.store.heap.length :=
    fun p member =>
      BlockStore.WellFormed.lt_of_linked (ready.chain.linked_of_mem member)
  have decided := middle.sameTree_commit commitQueue blk qc nodup bound
  obtain ⟨pruneHeight, committedHeight, result⟩ :=
    middle.commit_eq commitQueue blk qc nodup bound
  have rows : (fun p => (middle.store.height p, middle.store.hash p)) =
      indexRow core.store := by
    funext p
    rw [same.height, same.hash]
    rfl
  have applied : Uncommitted core { middle with
      trace := (middle.commitEffects commitQueue.reverse).reverse ++
        middle.trace } :=
    calm.uncommitted.trans ⟨_, rfl, middle.uncommitting_commitEffects _⟩
  refine ⟨locked.longer.trans decided.extends, ?_, ?_, ?_, ?_⟩
  · rw [decided.height, result]
    exact locked.hqcHeight
  · rw [decided.height, result]
    exact locked.lockHeight
  · rcases locked.lockChoice with stayed | ⟨higher, justifies, reached⟩
    · left
      rw [result]
      exact stayed
    · refine .inr ⟨higher, ?_, ?_⟩
      · rw [block, decided.justifyBlockPtr, result]
        exact justifies
      · rw [decided.height, decided.height, result]
        exact reached
  · rw [result]
    refine .commit (anchored.certifies_justify names).2.1
      (BlockStore.walk_cases walked).1 ?_ rfl certifies
    rw [← applied.disk.1, ← rows]
    rfl

/-- `update` moves the references forward, and the index by at most one
transaction. -/
theorem Anchored.advances_update {core : HotstuffCore}
    (anchored : core.Anchored) (nblk : BlockPtr) :
    Advances core (core.update nblk) := by
  have outcome := update_result core nblk
  generalize core.update nblk = after at outcome ⊢
  cases outcome with
  | skip =>
      exact .idle anchored (.refl core.store) (.of_trace rfl) rfl rfl rfl
  | certificate => exact core.advances_updateHqc _ _
  | lock _ _ names1 => exact advances_lock names1 _
  | fail _ _ names1 => exact (advances_lock names1 _).fail _
  | commit _ _ names1 _ names _ _ parent1 walked =>
      exact anchored.advances_commit _ _ names1 parent1 names walked
        (anchored.certifies_justify names).2.2

theorem Anchored.advances_onReceiveVote {core : HotstuffCore}
    (anchored : core.Anchored) (cert : PartialCertificate) (p : BlockPtr)
    (voter : ReplicaID) :
    Advances core (core.onReceiveVote cert p voter) := by
  have longer := (core.sameTree_onReceiveVote cert p voter).extends
  have calm := (core.calm_onReceiveVote cert p voter).1
  rcases core.onReceiveVote_cases cert p voter with
    ⟨message, -, result⟩ | ⟨extended, added, ⟨-, -, result⟩ | result⟩ <;>
    rw [result] at longer calm ⊢
  · exact .idle anchored longer calm rfl rfl rfl
  · have raised := advances_updateHqc (core.withVote p extended) p extended
    have same := sameTree_withVote added
    have hqcHeight := raised.hqcHeight
    rw [same.height] at hqcHeight
    have lockHeight := raised.lockHeight
    rw [same.height] at lockHeight
    exact ⟨longer, hqcHeight, lockHeight,
      .inl (updateHqc_bLock (core.withVote p extended) p extended),
      .of_calm calm
        (updateHqc_bExec (core.withVote p extended) p extended)⟩
  · exact .idle anchored longer calm rfl rfl rfl

theorem Anchored.advances_proposeBody {core : HotstuffCore}
    (anchored : core.Anchored) (nonemptyProposal : Bool) (body : Body) :
    Advances core (core.proposeBody nonemptyProposal body) := by
  obtain ⟨-, longer, -⟩ := anchored.mintedStore body
  have calm := (core.calm_proposeBody nonemptyProposal body).1
  rw [anchored.proposeBody_eq] at calm ⊢
  exact .idle anchored longer calm rfl rfl rfl

theorem Anchored.advances_step {core : HotstuffCore}
    (anchored : core.Anchored) {event : Event} (enabled : core.Enabled event) :
    Advances core (core.step event) := by
  have longer := (anchored.gains_step enabled).longer
  cases event with
  | receiveBlock wireBlock source =>
      exact .idle anchored longer (.of_trace rfl) rfl rfl rfl
  | insertBlock p => exact .idle anchored longer (.of_trace rfl) rfl rfl rfl
  | vote cert p voter => exact anchored.advances_onReceiveVote _ _ _
  | selfVote p => exact anchored.advances_onReceiveVote _ _ _
  | proposal p proposer =>
      have placed := anchored.placed_of_height enabled.2.1
      rcases onReceiveProposal_cases anchored.tree p proposer with
        ⟨-, result⟩ | ⟨-, result⟩ <;> rw [HotstuffCore.step, result]
      · have voted := (anchored.castVote placed proposer).advances_update p
        have calm : Calm core (core.castVote p proposer) :=
          ⟨[_], rfl, List.forall_mem_singleton.mpr ⟨rfl, rfl⟩⟩
        refine ⟨voted.longer, voted.hqcHeight, voted.lockHeight,
          voted.lockChoice, ?_⟩
        cases voted.log with
        | keep bExec index qc =>
            exact .keep bExec (index.trans calm.uncommitted.disk.1)
              (qc.trans calm.uncommitted.disk.2)
        | commit placed chain index top certifies =>
            rw [calm.uncommitted.disk.1] at index
            exact .commit placed chain index top
              ⟨certifies.objHash, certifies.small, certifies.verified⟩
      · exact anchored.advances_update p
  | doPropose body => exact anchored.advances_proposeBody _ body
  | doEmptyPropose body => exact anchored.advances_proposeBody _ body
  | garbageCollect => exact .idle anchored longer (.of_trace rfl) rfl rfl rfl

/-! ### The invariant of the log -/

/-- The blocks of the tree justify lower blocks. -/
def JustifiesLower (core : HotstuffCore) : Prop :=
  ∀ p justify, (core.block p).justifyBlockPtr = some justify →
    core.store.height justify < core.store.height p

instance decidableJustifiesLower (core : HotstuffCore) :
    Decidable core.JustifiesLower :=
  decidable_of_iff
    (∀ p ∈ List.range core.store.heap.length,
      ∀ justify ∈ (core.block p).justifyBlockPtr,
        core.store.height justify < core.store.height p) (by
    constructor
    · intro inside p justify names
      by_cases bound : p < core.store.heap.length
      · exact inside p (List.mem_range.mpr bound) justify names
      · rw [block, BlockStore.block_of_length_le (Nat.le_of_not_lt bound)]
          at names
        cases names
    · intro lower p _ justify names
      exact lower p justify names)

structure LogSound (core : HotstuffCore) : Prop where
  lockReached : core.store.height core.bLock ≤ core.store.height core.hqc.1
  index : ∃ passed, core.store.Chain core.bExec passed 0 ∧
    core.disk.decidedHashIndex.entries =
      passed.reverse.map (indexRow core.store)
  top : (core.bExec = 0 ∧ core.disk.qcOnTopBlock = none) ∨
    ∃ qc, core.disk.qcOnTopBlock = some qc ∧
      qc.justify = core.store.hash core.bExec ∧
      (QuorumCertificate.ofWire qc).verify core.config = .ok true

theorem LogSound.init (selfId : ReplicaID) (config : ReplicaConfig)
    (secretKey : SecretKey) :
    LogSound (init selfId config secretKey) where
  lockReached := Nat.le_refl _
  index := ⟨[], .here 0, rfl⟩
  top := .inl ⟨rfl, rfl⟩

/-- The rows of a parent chain do not change when the tree grows. -/
theorem Anchored.rows_extends {core : HotstuffCore} (anchored : core.Anchored)
    {store : BlockStore} (longer : core.store.Extends store) {p : BlockPtr}
    {passed : List BlockPtr} (placed : core.store.Placed p)
    (chain : core.store.Chain p passed 0) :
    store.Chain p passed 0 ∧
      passed.reverse.map (indexRow store) =
        passed.reverse.map (indexRow core.store) := by
  refine ⟨(anchored.tree.chain_extends longer placed).mpr chain, ?_⟩
  apply List.map_congr_left
  intro q member
  have linked := chain.linked_of_mem (List.mem_reverse.mp member)
  rw [indexRow, indexRow, longer.height (.inr linked),
    longer.hash (.inr linked)]

/-- The rows of a parent chain to genesis have the keys one, two, and so on. -/
theorem Anchored.rows_keys {core : HotstuffCore} (anchored : core.Anchored)
    {p : BlockPtr} {passed : List BlockPtr}
    (chain : core.store.Chain p passed 0) :
    (passed.reverse.map (indexRow core.store)).map Prod.fst =
      List.range' 1 (core.store.height p) := by
  have heights := anchored.tree.chain_heights chain
  have length := anchored.tree.chain_height chain
  rw [anchored.tree.genesis_height] at heights length
  rw [List.map_map]
  have keys : Prod.fst ∘ indexRow core.store = core.store.height := rfl
  rw [keys, heights]
  congr 1
  omega

theorem LogSound.advances {core after : HotstuffCore}
    (sound : core.LogSound) (anchored : core.Anchored)
    (advances : Advances core after) (sameConfig : after.config = core.config)
    (lower : after.JustifiesLower) : after.LogSound := by
  obtain ⟨passed, chain, entries⟩ := sound.index
  constructor
  · rcases advances.lockChoice with stayed | ⟨blk2, justifies, reached⟩
    · rw [stayed, advances.longer.height anchored.lockPlaced]
      exact sound.lockReached.trans advances.hqcHeight
    · exact (lower blk2 after.bLock justifies).le.trans reached
  · cases advances.log with
    | keep bExec index qc =>
        obtain ⟨chain', rows⟩ := anchored.rows_extends advances.longer
          anchored.execPlaced chain
        rw [bExec, index]
        exact ⟨passed, chain', entries.trans rows.symm⟩
    | @commit commitQueue qc placed newer index top certifies =>
        have whole := newer.trans chain
        obtain ⟨whole', rows⟩ :=
          anchored.rows_extends advances.longer placed whole
        refine ⟨_, whole', ?_⟩
        have joined : core.disk.decidedHashIndex.entries ++
            commitQueue.reverse.map (indexRow core.store) =
              (commitQueue ++ passed).reverse.map (indexRow core.store) := by
          rw [entries, List.reverse_append, List.map_append]
        rw [index, rows, ← joined]
        apply OrderedMap.entries_foldl_put
        rw [joined, ← List.pairwise_map (f := Prod.fst) (R := (· < ·)),
          anchored.rows_keys whole]
        exact List.pairwise_lt_range'
  · rw [sameConfig]
    cases advances.log with
    | keep bExec index qc =>
        rw [bExec, qc, advances.longer.hash anchored.execPlaced]
        exact sound.top
    | @commit commitQueue qc placed newer index top certifies =>
        refine .inr ⟨_, top, ?_, ?_⟩
        · rw [advances.longer.hash placed]
          exact certifies.objHash
        · rw [QuorumCertificate.ofWire_serialize certifies.small]
          exact certifies.verified

/-- The references have moved forward, and the last executed block to a
descendant. -/
structure Progress (core after : HotstuffCore) : Prop where
  longer : core.store.Extends after.store
  hqcHeight :
    core.store.height core.hqc.1 ≤ after.store.height after.hqc.1
  lockHeight :
    core.store.height core.bLock ≤ after.store.height after.bLock
  execHeight :
    core.store.height core.bExec ≤ after.store.height after.bExec
  execDescends : ∃ passed, after.store.Chain after.bExec passed core.bExec

omit [Externals] in
theorem Progress.refl (core : HotstuffCore) : Progress core core :=
  ⟨.refl core.store, Nat.le_refl _, Nat.le_refl _, Nat.le_refl _, [], .here _⟩

theorem Progress.trans {first middle last : HotstuffCore}
    (anchored : middle.Anchored) (upper : Progress first middle)
    (lower : Progress middle last) : Progress first last := by
  obtain ⟨passed, chain⟩ := upper.execDescends
  obtain ⟨passed', chain'⟩ := lower.execDescends
  have lifted := (anchored.tree.chain_extends lower.longer
    anchored.execPlaced).mpr chain
  exact ⟨upper.longer.trans lower.longer,
    upper.hqcHeight.trans lower.hqcHeight,
    upper.lockHeight.trans lower.lockHeight,
    upper.execHeight.trans lower.execHeight, _, chain'.trans lifted⟩

theorem Anchored.progress_step {core : HotstuffCore}
    (anchored : core.Anchored) {event : Event} (enabled : core.Enabled event) :
    Progress core (core.step event) := by
  have advances := anchored.advances_step enabled
  have descends : ∃ passed, (core.step event).store.Chain
      (core.step event).bExec passed core.bExec := by
    cases advances.log with
    | keep bExec => exact ⟨[], bExec ▸ .here _⟩
    | commit placed chain =>
        exact ⟨_, (anchored.tree.chain_extends advances.longer placed).mpr
          chain⟩
  obtain ⟨passed, chain⟩ := descends
  refine ⟨advances.longer, advances.hqcHeight, advances.lockHeight, ?_,
    passed, chain⟩
  have tree := (grows_step anchored.tree enabled).1
  have heights := tree.chain_height chain
  rw [advances.longer.height anchored.execPlaced] at heights
  omega

/-- What the replica has decided, in its flags and in the index. -/
structure DecidedLog (core : HotstuffCore) : Prop where
  execBelowLock : core.bExec = 0 ∨
    core.store.height core.bExec < core.store.height core.bLock
  lockBelowHqc : core.store.height core.bLock ≤ core.store.height core.hqc.1
  decidedIff : ∀ p < core.store.heap.length,
    (core.block p).decided = true ↔
      ∃ passed, core.store.Chain core.bExec passed p
  keys : core.disk.decidedHashIndex.keys =
    List.range' 1 (core.store.height core.bExec)
  ancestors : ∀ passed p, core.store.Chain core.bExec passed p → p ≠ 0 →
    core.disk.decidedHashIndex.find? (core.store.height p) =
      some (core.store.hash p)
  qcPresent : core.bExec ≠ 0 → core.disk.qcOnTopBlock.isSome
  qcCertifies : ∀ qc, core.disk.qcOnTopBlock = some qc →
    qc.justify = core.store.hash core.bExec ∧
      (QuorumCertificate.ofWire qc).verify core.config = .ok true

theorem LogSound.decidedLog {core : HotstuffCore} (sound : core.LogSound)
    (anchored : core.Anchored) : core.DecidedLog := by
  obtain ⟨passed, chain, entries⟩ := sound.index
  refine ⟨anchored.execBelowLock, sound.lockReached, anchored.decidedIff,
    ?_, ?_, ?_, ?_⟩
  · rw [OrderedMap.keys, entries]
    exact anchored.rows_keys chain
  · intro passed' p ancestor notGenesis
    rw [OrderedMap.find?_eq_some_iff, entries]
    -- The block is passed on the way to genesis.
    have member : p ∈ passed := by
      rcases chain.split ancestor with member | ⟨rest, fromGenesis⟩
      · exact member
      · cases fromGenesis with
        | here => exact (notGenesis rfl).elim
        | up edge =>
            rw [anchored.tree.genesis_parent] at edge
            cases edge
    exact List.mem_map_of_mem (f := indexRow core.store)
      (List.mem_reverse.mpr member)
  · intro executed
    rcases sound.top with ⟨genesis, -⟩ | ⟨qc, present, -⟩
    · exact (executed genesis).elim
    · rw [present]
      rfl
  · intro qc present
    rcases sound.top with ⟨-, absent⟩ | ⟨other, present', certifies⟩
    · rw [absent] at present
      cases present
    · obtain rfl := Option.some.inj (present'.symm.trans present)
      exact certifies

end HotstuffCore

/-! ### Runs -/

/-- The runs of one replica in which all blocks justify lower blocks. -/
def lowerJustifySystem (selfId : ReplicaID) (config : ReplicaConfig)
    (secretKey : SecretKey) :
    TransitionSystem HotstuffCore HotstuffCore.Event :=
  (replicaSystem selfId config secretKey).restrict fun core event =>
    (core.step event).JustifiesLower

instance decidableLowerJustify (selfId : ReplicaID) (config : ReplicaConfig)
    (secretKey : SecretKey) (core : HotstuffCore)
    (event : HotstuffCore.Event) :
    Decidable
      ((lowerJustifySystem selfId config secretKey).enabled core event) :=
  inferInstanceAs (Decidable (core.Enabled event ∧
    (core.step event).JustifiesLower))

variable {selfId : ReplicaID} {config : ReplicaConfig} {secretKey : SecretKey}

theorem logSound_of_reachable
    (configured : (HotstuffCore.init selfId config secretKey).Configured)
    {core : HotstuffCore}
    (reachable : (lowerJustifySystem selfId config secretKey).Reachable core) :
    core.LogSound := by
  refine reachable.invariant HotstuffCore.LogSound ?_ ?_
  · rintro start rfl
    exact .init selfId config secretKey
  · intro core event reached sound allowed
    have anchored :=
      (operating_of_reachable configured reached.of_restrict).anchored
    exact sound.advances anchored (anchored.advances_step allowed.1)
      (anchored.sends_step event).config allowed.2

/-- In every state of a run in which blocks justify lower blocks, the flags and
the index hold exactly the ancestors of the last executed block, which is below
the lock, which is not above the highest certificate.  Whatever happens
afterwards, none of the three moves down, and the last executed block moves to
its descendants only. -/
theorem decided_log_invariant
    (configured : (HotstuffCore.init selfId config secretKey).Configured)
    {core : HotstuffCore}
    (reachable : (lowerJustifySystem selfId config secretKey).Reachable core) :
    core.DecidedLog ∧
      ∀ events, (lowerJustifySystem selfId config secretKey).EnabledAlong core
          events →
        core.Progress
          ((lowerJustifySystem selfId config secretKey).run core events) := by
  have anchored {core : HotstuffCore}
      (reached :
        (lowerJustifySystem selfId config secretKey).Reachable core) :
      core.Anchored :=
    (operating_of_reachable configured reached.of_restrict).anchored
  have sound := logSound_of_reachable configured reachable
  refine ⟨sound.decidedLog (anchored reachable), ?_⟩
  intro events allowed
  refine reachable.along HotstuffCore.Progress .refl ?_ ?_ allowed
  · intro first middle last reached upper lower
    exact upper.trans (anchored reached) lower
  · intro core event reached enabled
    exact (anchored reached).progress_step enabled.1

end Log

open scoped Symbolic in
open Symbolic in
/-- A chain of four blocks commits the first one. -/
theorem decided_log_after_commit :
    ∃ core, (lowerJustifySystem 0 fourReplicas (0 : Nat)).Reachable core ∧
      core.store.height core.bExec = 1 ∧ core.DecidedLog := by
  have reachable : (lowerJustifySystem 0 fourReplicas (0 : Nat)).Reachable
      ((lowerJustifySystem 0 fourReplicas (0 : Nat)).run
        (.init 0 fourReplicas (0 : Nat)) Crash.events) := by
    refine .run (.initial rfl) ?_
    decide +kernel
  refine ⟨_, reachable, ?_,
    (decided_log_invariant (init_configured 0 (by decide)) reachable).1⟩
  decide +kernel

end Hotstuff
