import Hotstuff.BlockInsertions
import Hotstuff.CertificateEncoding
import Hotstuff.Replica

/-!
# Counting votes

A quorum is noticed by an edge: the certificate of the block has no quorum
before a vote and has one after it.  Votes that come twice are not counted
twice, so the edge is at the vote that brings the number of different voters to
the threshold, and there is no second one.  The certificate that becomes the
highest at that moment has the first signature of each of these voters.
-/

namespace Hotstuff

section Counting

variable [WireTypes] [Externals]

/-- A vote as `on_receive_vote` gets it. -/
structure ReceivedVote where
  partialCert : PartialCertificate
  certifiedBlock : BlockPtr
  voterid : ReplicaID

/-- The argument of a call of `on_new_qc`. -/
def Effect.newQc : Effect → Option Hash
  | .onNewQc hash => some hash
  | _ => none

namespace HotstuffCore

def receiveVote (core : HotstuffCore) (vote : ReceivedVote) : HotstuffCore :=
  core.onReceiveVote vote.partialCert vote.certifiedBlock vote.voterid

/-- The votes in the order in which they are received; one that throws leaves
the certificates as they are. -/
def receiveVotes (core : HotstuffCore) (votes : List ReceivedVote) :
    HotstuffCore :=
  votes.foldl receiveVote core

/-- The certificates reported with `on_new_qc`, newest first. -/
def newQcs (core : HotstuffCore) : List Hash :=
  core.trace.filterMap Effect.newQc

/-- The number of calls of `on_new_qc` with the hash. -/
def newQcCalls (core : HotstuffCore) (hash : Hash) : Nat :=
  core.newQcs.count hash

/-- What a vote on the block contributes to its certificate. -/
def contribution (p : BlockPtr) (vote : ReceivedVote) :
    Option QuorumCertificate.Contribution :=
  if vote.certifiedBlock = p then some (vote.voterid, vote.partialCert)
  else none

/-- The votes on the block. -/
def contributions (p : BlockPtr) (votes : List ReceivedVote) :
    List QuorumCertificate.Contribution :=
  votes.filterMap (contribution p)

/-- The replicas that have voted on the block. -/
def voters (p : BlockPtr) (votes : List ReceivedVote) : Finset ReplicaID :=
  ((contributions p votes).map Prod.fst).toFinset

/-- The first signature on the block that the replica sent. -/
def firstSignature (p : BlockPtr) (votes : List ReceivedVote)
    (rid : ReplicaID) : Option Signature :=
  ((contributions p votes).map fun cast => (cast.1, cast.2.sig)).lookup rid

/-! ### One vote -/

/-- The vote completes a quorum on its block. -/
def CompletesQuorum (core : HotstuffCore) (vote : ReceivedVote) : Prop :=
  let selfQc := (core.block vote.certifiedBlock).selfQc
  selfQc.hasQuorum core.config = false ∧
    (selfQc.offer (vote.voterid, vote.partialCert)).hasQuorum core.config = true

variable {core : HotstuffCore}

theorem config_receiveVote (core : HotstuffCore) (vote : ReceivedVote) :
    (core.receiveVote vote).config = core.config :=
  (internal_onReceiveVote core vote.partialCert vote.certifiedBlock
    vote.voterid).config

theorem sameTree_receiveVote (core : HotstuffCore) (vote : ReceivedVote) :
    core.store.SameTree (core.receiveVote vote).store :=
  sameTree_onReceiveVote core vote.partialCert vote.certifiedBlock vote.voterid

/-- A vote is offered to the certificate of its block. -/
theorem selfQc_receiveVote (core : HotstuffCore) (vote : ReceivedVote)
    {p : BlockPtr} (bound : p < core.store.heap.length) :
    ((core.receiveVote vote).block p).selfQc =
      ((contribution p vote).toList).foldl QuorumCertificate.offer
        (core.block p).selfQc := by
  have added : ∀ extended,
      (core.block vote.certifiedBlock).selfQc.addPartialCertificate
        vote.voterid vote.partialCert = .ok extended →
      ((core.withVote vote.certifiedBlock extended).block p).selfQc =
        ((contribution p vote).toList).foldl QuorumCertificate.offer
          (core.block p).selfQc := by
    intro extended accepted
    unfold contribution
    split
    · rename_i same
      subst same
      rw [selfQc_withVote core extended bound]
      exact (QuorumCertificate.offer_of_ok accepted).symm
    · rename_i other
      have untouched : (core.withVote vote.certifiedBlock extended).block p =
          core.block p := by
        rw [block, withVote, BlockStore.block_modifyBlock,
          if_neg fun same => other same.1]
        rfl
      rw [untouched]
      rfl
  rcases core.onReceiveVote_cases vote.partialCert vote.certifiedBlock
      vote.voterid with
    ⟨message, rejected, result⟩ | ⟨extended, accepted, edge | result⟩
  · rw [receiveVote, result, contribution]
    split
    · rename_i same
      subst same
      exact (QuorumCertificate.offer_of_error rejected).symm
    · rfl
  · rw [receiveVote, edge.2.2, ← added extended accepted]
    change (((core.withVote vote.certifiedBlock extended).updateHqc
      vote.certifiedBlock extended).store.block p).selfQc = _
    rw [updateHqc_store]
    rfl
  · rw [receiveVote, result, added extended accepted]

theorem newQcs_updateHqc (core : HotstuffCore) (q : BlockPtr)
    (qc : QuorumCertificate) : (core.updateHqc q qc).newQcs = core.newQcs := by
  rcases updateHqc_cases core q qc with
    ⟨-, effects, notified, result⟩ | ⟨-, result⟩
  · rw [result, newQcs, List.filterMap_append]
    have silent : effects.filterMap Effect.newQc = [] := by
      apply List.filterMap_eq_nil_iff.mpr
      intro effect member
      rw [notified effect member]
      rfl
    rw [silent]
    rfl
  · rw [result]

theorem newQcCalls_updateHqc (core : HotstuffCore) (qcBlock : BlockPtr)
    (qc : QuorumCertificate) (hash : Hash) :
    (core.updateHqc qcBlock qc).newQcCalls hash = core.newQcCalls hash := by
  rw [newQcCalls, newQcs_updateHqc]
  rfl

omit [Externals] in
theorem newQcCalls_emit_onNewQc (core : HotstuffCore) (reported hash : Hash) :
    (core.emit (.onNewQc reported)).newQcCalls hash =
      core.newQcCalls hash + if reported = hash then 1 else 0 := by
  change (reported :: core.newQcs).count hash = _
  rw [List.count_cons]
  simp only [beq_iff_eq]
  rfl

theorem hqc_updateHqc (core : HotstuffCore) (qcBlock : BlockPtr)
    (qc : QuorumCertificate) :
    (core.updateHqc qcBlock qc).hqc =
      if core.store.height core.hqc.1 < core.store.height qcBlock then
        (qcBlock, qc.serialize)
      else core.hqc := by
  rcases updateHqc_cases core qcBlock qc with
    ⟨higher, _, -, result⟩ | ⟨notHigher, result⟩
  · rw [result, if_pos higher]
  · rw [result, if_neg (Nat.not_lt.mpr notHigher)]

/-- A vote that completes a quorum is reported, and raises the highest
certificate if its block is higher; no other vote does. -/
theorem receiveVote_cases (core : HotstuffCore) (vote : ReceivedVote)
    (bound : vote.certifiedBlock < core.store.heap.length) :
    core.CompletesQuorum vote ∧
        (∀ hash, (core.receiveVote vote).newQcCalls hash =
          core.newQcCalls hash +
            if core.store.hash vote.certifiedBlock = hash then 1 else 0) ∧
        (core.receiveVote vote).hqc =
          (if core.store.height core.hqc.1 <
              core.store.height vote.certifiedBlock then
            (vote.certifiedBlock,
              ((core.receiveVote vote).block
                vote.certifiedBlock).selfQc.serialize)
          else core.hqc) ∨
      ¬ core.CompletesQuorum vote ∧
        (∀ hash, (core.receiveVote vote).newQcCalls hash =
          core.newQcCalls hash) ∧
        (core.receiveVote vote).hqc = core.hqc := by
  have offered : ∀ extended,
      (core.block vote.certifiedBlock).selfQc.addPartialCertificate
        vote.voterid vote.partialCert = .ok extended →
      (core.CompletesQuorum vote ↔
        (extended.hasQuorum core.config &&
          !(core.block vote.certifiedBlock).selfQc.hasQuorum core.config) =
            true) := by
    intro extended accepted
    rw [CompletesQuorum, QuorumCertificate.offer_of_ok accepted,
      Bool.and_eq_true, Bool.not_eq_true', and_comm]
  have newQc := selfQc_receiveVote core vote bound
  rw [contribution, if_pos rfl] at newQc
  have newQc : ((core.receiveVote vote).block vote.certifiedBlock).selfQc =
      (core.block vote.certifiedBlock).selfQc.offer
        (vote.voterid, vote.partialCert) := newQc
  rw [newQc]
  simp only [receiveVote, onReceiveVote]
  split
  · rename_i message rejected
    refine .inr ⟨?_, fun _ => rfl, rfl⟩
    rintro ⟨before, after⟩
    rw [QuorumCertificate.offer_of_error rejected, before] at after
    cases after
  · rename_i extended accepted
    rw [QuorumCertificate.offer_of_ok accepted]
    split
    · rename_i edge
      refine .inl ⟨(offered extended accepted).mpr edge, ?_, ?_⟩
      · intro hash
        have sameHash : ((core.withVote vote.certifiedBlock extended).block
            vote.certifiedBlock).getHash =
              core.store.hash vote.certifiedBlock :=
          (sameTree_withVote accepted).hash vote.certifiedBlock
        refine (newQcCalls_emit_onNewQc _ _ hash).trans ?_
        rw [newQcCalls_updateHqc]
        exact congrArg (fun reported => core.newQcCalls hash +
          if reported = hash then 1 else 0) sameHash
      · have sameHeight := (sameTree_withVote accepted).height
        refine (hqc_updateHqc (core.withVote vote.certifiedBlock extended)
          vote.certifiedBlock extended).trans ?_
        rw [sameHeight, sameHeight]
        rfl
    · rename_i noEdge
      exact .inr ⟨fun edge => noEdge ((offered extended accepted).mp edge),
        fun _ => rfl, rfl⟩

/-! ### All votes -/

theorem receiveVotes_concat (core : HotstuffCore) (earlier : List ReceivedVote)
    (vote : ReceivedVote) :
    core.receiveVotes (earlier ++ [vote]) =
      (core.receiveVotes earlier).receiveVote vote := by
  simp [receiveVotes]

theorem config_receiveVotes (core : HotstuffCore) (votes : List ReceivedVote) :
    (core.receiveVotes votes).config = core.config := by
  induction votes generalizing core with
  | nil => rfl
  | cons vote votes ih => exact (ih _).trans (config_receiveVote core vote)

theorem sameTree_receiveVotes (core : HotstuffCore)
    (votes : List ReceivedVote) :
    core.store.SameTree (core.receiveVotes votes).store := by
  induction votes generalizing core with
  | nil => exact .refl core.store
  | cons vote votes ih => exact (sameTree_receiveVote core vote).trans (ih _)

/-- The certificate of a block has been offered all votes on it. -/
theorem selfQc_receiveVotes (core : HotstuffCore) (votes : List ReceivedVote)
    {p : BlockPtr} (bound : p < core.store.heap.length) :
    ((core.receiveVotes votes).block p).selfQc =
      (contributions p votes).foldl QuorumCertificate.offer
        (core.block p).selfQc := by
  induction votes generalizing core with
  | nil => rfl
  | cons vote votes ih =>
      have bound' : p < (core.receiveVote vote).store.heap.length :=
        (sameTree_receiveVote core vote).length ▸ bound
      refine (ih _ bound').trans ?_
      rw [selfQc_receiveVote core vote bound, ← List.foldl_append,
        contributions, contributions, List.filterMap_cons]
      cases contribution p vote <;> rfl

/-- The votes are on known blocks.  Those on `p` have the hash of the block and
the id of a replica, and its certificate is fresh; those on other blocks are on
other hashes. -/
structure Counted (core : HotstuffCore) (p : BlockPtr)
    (votes : List ReceivedVote) : Prop where
  bound : p < core.store.heap.length
  fresh : (core.block p).selfQc = .new (core.store.hash p)
  proper : ∀ vote ∈ votes, vote.certifiedBlock = p →
    vote.voterid < maxReplicas ∧ vote.partialCert.hash = core.store.hash p
  known : ∀ vote ∈ votes, vote.certifiedBlock < core.store.heap.length
  others : ∀ vote ∈ votes, vote.certifiedBlock ≠ p →
    core.store.hash vote.certifiedBlock ≠ core.store.hash p

variable {p : BlockPtr} {votes earlier : List ReceivedVote}
  {vote : ReceivedVote}

omit [Externals] in
theorem Counted.of_prefix (counted : core.Counted p votes)
    (initial : earlier <+: votes) : core.Counted p earlier where
  bound := counted.bound
  fresh := counted.fresh
  proper := fun vote member => counted.proper vote (initial.subset member)
  known := fun vote member => counted.known vote (initial.subset member)
  others := fun vote member => counted.others vote (initial.subset member)

/-- The certificate has the first signature of each voter. -/
theorem Counted.find?_selfQc (counted : core.Counted p votes)
    (rid : ReplicaID) :
    ((core.receiveVotes votes).block p).selfQc.sigs.find? rid =
      firstSignature p votes rid := by
  have proper : ∀ cast ∈ contributions p votes, cast.1 < maxReplicas ∧
      cast.2.hash = (QuorumCertificate.new (core.store.hash p)).objHash := by
    intro cast member
    obtain ⟨vote, voteMem, casts⟩ := List.mem_filterMap.mp member
    unfold contribution at casts
    split at casts
    · rename_i onBlock
      cases casts
      exact counted.proper vote voteMem onBlock
    · cases casts
  rw [selfQc_receiveVotes core votes counted.bound, counted.fresh]
  refine (QuorumCertificate.find?_collect (core.store.hash p) _ rid).trans ?_
  rw [QuorumCertificate.accepted_of_proper proper, firstSignature]

omit [Externals] in
theorem isSome_firstSignature_iff (p : BlockPtr) (votes : List ReceivedVote)
    (rid : ReplicaID) :
    (firstSignature p votes rid).isSome = true ↔ rid ∈ voters p votes := by
  rw [firstSignature, List.lookup_isSome_iff]
  simp only [voters, List.mem_toFinset, List.mem_map, beq_iff_eq]
  constructor
  · rintro ⟨pair, ⟨cast, member, rfl⟩, same⟩
    exact ⟨cast, member, same.symm⟩
  · rintro ⟨cast, member, rfl⟩
    exact ⟨_, ⟨cast, member, rfl⟩, rfl⟩

/-- The certificate has as many entries as there are voters. -/
theorem Counted.keys_selfQc (counted : core.Counted p votes) :
    ((core.receiveVotes votes).block p).selfQc.sigs.keys.toFinset =
      voters p votes := by
  ext rid
  rw [List.mem_toFinset, ← OrderedMap.find?_isSome_iff,
    counted.find?_selfQc rid, isSome_firstSignature_iff]

theorem Counted.size_selfQc (counted : core.Counted p votes) :
    ((core.receiveVotes votes).block p).selfQc.sigs.size =
      (voters p votes).card := by
  rw [← OrderedMap.card_keys, counted.keys_selfQc]

theorem Counted.keys_selfQc_lt (counted : core.Counted p votes) :
    ∀ rid ∈ ((core.receiveVotes votes).block p).selfQc.sigs.keys,
      rid < maxReplicas := by
  rw [selfQc_receiveVotes core votes counted.bound, counted.fresh]
  exact QuorumCertificate.keys_collect_lt (core.store.hash p) _

theorem Counted.hasQuorum_iff (counted : core.Counted p votes) :
    ((core.receiveVotes votes).block p).selfQc.hasQuorum core.config = true ↔
      core.config.nmajority ≤ (voters p votes).card := by
  rw [QuorumCertificate.hasQuorum, counted.size_selfQc, decide_eq_true_eq]

/-- The vote brings the number of different voters on the block to the
threshold. -/
def BringsTo (p : BlockPtr) (earlier : List ReceivedVote) (vote : ReceivedVote)
    (threshold : Nat) : Prop :=
  (voters p earlier).card < threshold ∧
    (voters p (earlier ++ [vote])).card = threshold

omit [Externals] in
theorem voters_concat (p : BlockPtr) (earlier : List ReceivedVote)
    (vote : ReceivedVote) :
    voters p (earlier ++ [vote]) =
      if vote.certifiedBlock = p then insert vote.voterid (voters p earlier)
      else voters p earlier := by
  ext rid
  by_cases onBlock : vote.certifiedBlock = p
  · simp [voters, contributions, contribution, onBlock]
  · simp [voters, contributions, contribution, onBlock]

omit [Externals] in
theorem card_voters_concat (p : BlockPtr) (earlier : List ReceivedVote)
    (vote : ReceivedVote) :
    (voters p earlier).card ≤ (voters p (earlier ++ [vote])).card ∧
      (voters p (earlier ++ [vote])).card ≤ (voters p earlier).card + 1 := by
  rw [voters_concat]
  split
  · exact ⟨Finset.card_le_card (Finset.subset_insert _ _),
      Finset.card_insert_le _ _⟩
  · omega

/-- A vote on the block completes the quorum when it brings the number of voters
to the threshold. -/
theorem Counted.completesQuorum_iff
    (counted : core.Counted p (earlier ++ [vote]))
    (onBlock : vote.certifiedBlock = p) :
    (core.receiveVotes earlier).CompletesQuorum vote ↔
      BringsTo p earlier vote core.config.nmajority := by
  have before := (counted.of_prefix (List.prefix_append _ _)).hasQuorum_iff
  have after := counted.hasQuorum_iff
  have bound : p < (core.receiveVotes earlier).store.heap.length :=
    (sameTree_receiveVotes core earlier).length ▸ counted.bound
  rw [receiveVotes_concat, selfQc_receiveVote _ vote bound, contribution,
    if_pos onBlock] at after
  change (QuorumCertificate.offer _ (vote.voterid, vote.partialCert)).hasQuorum
    core.config = true ↔ _ at after
  rw [CompletesQuorum, config_receiveVotes, onBlock, after, BringsTo,
    ← Bool.not_eq_true, before]
  have card := card_voters_concat p earlier vote
  omega

/-- A vote on another block is reported, if at all, with another hash. -/
theorem Counted.newQcCalls_other
    (counted : core.Counted p (earlier ++ [vote]))
    (other : vote.certifiedBlock ≠ p) :
    (core.receiveVotes (earlier ++ [vote])).newQcCalls (core.store.hash p) =
      (core.receiveVotes earlier).newQcCalls (core.store.hash p) := by
  have tree := sameTree_receiveVotes core earlier
  have bound : vote.certifiedBlock <
      (core.receiveVotes earlier).store.heap.length :=
    tree.length ▸ counted.known vote (by simp)
  rw [receiveVotes_concat]
  rcases receiveVote_cases _ vote bound with ⟨-, calls, -⟩ | ⟨-, calls, -⟩
  · have otherHash := counted.others vote (by simp) other
    rw [calls, tree.hash, if_neg otherHash, Nat.add_zero]
  · exact calls _

/-- A vote is reported when it brings the number of voters to the threshold, and
only then. -/
theorem Counted.newQcCalls_concat
    (counted : core.Counted p (earlier ++ [vote])) :
    (BringsTo p earlier vote core.config.nmajority →
      (core.receiveVotes (earlier ++ [vote])).newQcCalls (core.store.hash p) =
        (core.receiveVotes earlier).newQcCalls (core.store.hash p) + 1) ∧
      (¬ BringsTo p earlier vote core.config.nmajority →
        (core.receiveVotes (earlier ++ [vote])).newQcCalls
            (core.store.hash p) =
          (core.receiveVotes earlier).newQcCalls (core.store.hash p)) := by
  by_cases onBlock : vote.certifiedBlock = p
  · have tree := sameTree_receiveVotes core earlier
    have bound : vote.certifiedBlock <
        (core.receiveVotes earlier).store.heap.length :=
      tree.length ▸ counted.known vote (by simp)
    rw [← counted.completesQuorum_iff onBlock, receiveVotes_concat]
    rcases receiveVote_cases _ vote bound with
      ⟨completes, calls, -⟩ | ⟨incomplete, calls, -⟩
    · refine ⟨fun _ => ?_, fun incomplete => (incomplete completes).elim⟩
      rw [calls, tree.hash, onBlock, if_pos rfl]
    · exact ⟨fun completes => (incomplete completes).elim, fun _ => calls _⟩
  · have same := counted.newQcCalls_other onBlock
    refine ⟨fun brings => ?_, fun _ => same⟩
    have card := brings.2
    rw [voters_concat, if_neg onBlock] at card
    exact (Nat.lt_irrefl _ (card ▸ brings.1)).elim

/-- Some vote brings the number of different voters to the threshold. -/
def Reaches (p : BlockPtr) (votes : List ReceivedVote) (threshold : Nat) :
    Prop :=
  ∃ earlier vote later, votes = earlier ++ vote :: later ∧
    BringsTo p earlier vote threshold

omit [Externals] in
theorem reaches_concat_iff (p : BlockPtr) (earlier : List ReceivedVote)
    (vote : ReceivedVote) (threshold : Nat) :
    Reaches p (earlier ++ [vote]) threshold ↔
      Reaches p earlier threshold ∨ BringsTo p earlier vote threshold := by
  constructor
  · rintro ⟨first, reaching, later, split, brings⟩
    rcases split_of_concat split with ⟨rfl, rfl⟩ | ⟨middle, rfl⟩
    · exact .inr brings
    · exact .inl ⟨first, reaching, middle, rfl, brings⟩
  · rintro (⟨first, reaching, later, rfl, brings⟩ | brings)
    · exact ⟨first, reaching, later ++ [vote], by simp, brings⟩
    · exact ⟨earlier, vote, [], rfl, brings⟩

omit [Externals] in
/-- A positive threshold is reached when there are enough voters in the end. -/
theorem reaches_iff (p : BlockPtr) (votes : List ReceivedVote)
    (threshold : Nat) :
    Reaches p votes threshold ↔
      0 < threshold ∧ threshold ≤ (voters p votes).card := by
  induction votes using List.reverseRecOn with
  | nil =>
      constructor
      · rintro ⟨earlier, vote, later, split, -⟩
        simp at split
      · rintro ⟨positive, reached⟩
        exact (Nat.not_le.mpr positive reached).elim
  | append_singleton earlier vote ih =>
      have card := card_voters_concat p earlier vote
      rw [reaches_concat_iff, ih, BringsTo]
      omega

theorem Counted.newQcCalls_eq (counted : core.Counted p votes) :
    (Reaches p votes core.config.nmajority →
      (core.receiveVotes votes).newQcCalls (core.store.hash p) =
        core.newQcCalls (core.store.hash p) + 1) ∧
      (¬ Reaches p votes core.config.nmajority →
        (core.receiveVotes votes).newQcCalls (core.store.hash p) =
          core.newQcCalls (core.store.hash p)) := by
  induction votes using List.reverseRecOn with
  | nil =>
      refine ⟨fun reached => ?_, fun _ => rfl⟩
      obtain ⟨earlier, vote, later, split, -⟩ := reached
      simp at split
  | append_singleton earlier vote ih =>
      obtain ⟨once, never⟩ := ih (counted.of_prefix (List.prefix_append _ _))
      obtain ⟨reported, silent⟩ := counted.newQcCalls_concat
      rw [reaches_concat_iff]
      by_cases brings : BringsTo p earlier vote core.config.nmajority
      · -- the threshold was not reached before this vote
        have unreached : ¬ Reaches p earlier core.config.nmajority := by
          intro reached
          have enough := ((reaches_iff p earlier _).mp reached).2
          exact Nat.not_le.mpr brings.1 enough
        refine ⟨fun _ => ?_, fun never => (never (.inr brings)).elim⟩
        rw [reported brings, never unreached]
      · rw [silent brings]
        refine ⟨fun reached => once (reached.resolve_right brings), ?_⟩
        intro unreached
        exact never fun reached => unreached (.inl reached)

/-! ### The highest certificate -/

/-- The highest certificate is on the block.  It has as many signers as the
threshold asks for, with the first signatures that they sent. -/
def HqcHolds (core : HotstuffCore) (p : BlockPtr)
    (votes : List ReceivedVote) : Prop :=
  let qc := QuorumCertificate.ofWire (core.receiveVotes votes).hqc.2
  (core.receiveVotes votes).hqc.1 = p ∧
    qc.sigs.size = core.config.nmajority ∧
    ∀ rid, qc.sigs.find? rid = firstSignature p votes rid

theorem Counted.hqc_concat (counted : core.Counted p (earlier ++ [vote]))
    (brings : BringsTo p earlier vote core.config.nmajority)
    (higher : core.store.height (core.receiveVotes earlier).hqc.1 <
      core.store.height p) :
    core.HqcHolds p (earlier ++ [vote]) := by
  have onBlock : vote.certifiedBlock = p := by
    by_contra other
    have card := brings.2
    rw [voters_concat, if_neg other] at card
    exact Nat.lt_irrefl _ (card ▸ brings.1)
  have tree := sameTree_receiveVotes core earlier
  have bound : vote.certifiedBlock <
      (core.receiveVotes earlier).store.heap.length :=
    tree.length ▸ counted.known vote (by simp)
  have raised : (core.receiveVotes (earlier ++ [vote])).hqc =
      (p, ((core.receiveVotes (earlier ++ [vote])).block
        p).selfQc.serialize) := by
    rw [receiveVotes_concat]
    rcases receiveVote_cases _ vote bound with ⟨-, -, hqc⟩ | ⟨incomplete, -⟩
    · rw [hqc, tree.height, tree.height, onBlock, if_pos higher]
    · exact (incomplete
        ((counted.completesQuorum_iff onBlock).mpr brings)).elim
  have small := counted.keys_selfQc_lt
  rw [HqcHolds, raised, QuorumCertificate.ofWire_serialize small]
  refine ⟨rfl, ?_, counted.find?_selfQc⟩
  rw [counted.size_selfQc, brings.2]

end HotstuffCore

/-- Whatever votes arrive, the new certificate of a block is reported once if
they reach the threshold and never otherwise, at the vote that reaches it, and
with the first signatures of the voters. -/
theorem new_qc_once {core : HotstuffCore} {p : BlockPtr}
    {votes : List ReceivedVote} (counted : core.Counted p votes) :
    ((HotstuffCore.Reaches p votes core.config.nmajority →
        (core.receiveVotes votes).newQcCalls (core.store.hash p) =
          core.newQcCalls (core.store.hash p) + 1) ∧
      (¬ HotstuffCore.Reaches p votes core.config.nmajority →
        (core.receiveVotes votes).newQcCalls (core.store.hash p) =
          core.newQcCalls (core.store.hash p))) ∧
      ∀ earlier vote later, votes = earlier ++ vote :: later →
        ((core.receiveVotes (earlier ++ [vote])).newQcCalls
            (core.store.hash p) ≠
          (core.receiveVotes earlier).newQcCalls (core.store.hash p) ↔
            HotstuffCore.BringsTo p earlier vote core.config.nmajority) ∧
          (HotstuffCore.BringsTo p earlier vote core.config.nmajority →
            core.store.height (core.receiveVotes earlier).hqc.1 <
              core.store.height p →
            core.HqcHolds p (earlier ++ [vote])) := by
  refine ⟨counted.newQcCalls_eq, ?_⟩
  rintro earlier vote later rfl
  have initial : earlier ++ [vote] <+: earlier ++ vote :: later :=
    ⟨later, by simp⟩
  have counted' := counted.of_prefix initial
  obtain ⟨reported, silent⟩ := counted'.newQcCalls_concat
  refine ⟨⟨?_, ?_⟩, counted'.hqc_concat⟩
  · intro called
    by_contra below
    exact called (silent below)
  · intro brings
    rw [reported brings]
    exact Nat.succ_ne_self _

end Counting

/-! ### Three of four votes -/

namespace Symbolic

/-- Replica `0` has received a block on the genesis block and one on top of
it. -/
def afterTwoBlocks : HotstuffCore :=
  [.receiveBlock (emptyOn zeroHash) 1, .insertBlock 1,
    .receiveBlock (emptyOn firstHash) 1, .insertBlock 2].foldl
      HotstuffCore.step (.init 0 fourReplicas (0 : Nat))

/-- A vote on the second block that anyone could have signed. -/
def conflictingVote : ReceivedVote :=
  ⟨⟨secondHash, .leaf 9⟩, 2, 3⟩

/-- Votes on the second block, repeated and conflicting ones among them, and
one on the first. -/
def mixedVotes : List ReceivedVote :=
  [⟨voteOf 3 secondHash, 2, 3⟩, ⟨voteOf 1 secondHash, 2, 1⟩, conflictingVote,
    ⟨voteOf 2 firstHash, 1, 2⟩, ⟨voteOf 2 secondHash, 2, 2⟩,
    ⟨voteOf 0 secondHash, 2, 0⟩]

end Symbolic

open scoped Symbolic in
open Symbolic in
theorem new_qc_once_mixedVotes :
    afterTwoBlocks.Counted 2 mixedVotes ∧
      (afterTwoBlocks.receiveVotes mixedVotes).newQcCalls secondHash = 1 ∧
      afterTwoBlocks.HqcHolds 2 (mixedVotes.take 5) := by
  have counted : afterTwoBlocks.Counted 2 mixedVotes := by
    constructor
    · decide +kernel
    · exact QuorumCertificate.ext rfl (OrderedMap.ext (by decide +kernel))
    · decide +kernel
    · decide +kernel
    · decide +kernel
  have hashEq : afterTwoBlocks.store.hash 2 = secondHash := by decide +kernel
  have silent : afterTwoBlocks.newQcCalls secondHash = 0 := by decide +kernel
  obtain ⟨⟨once, -⟩, atVote⟩ := new_qc_once counted
  refine ⟨counted, ?_, ?_⟩
  · rw [hashEq, silent] at once
    apply once
    rw [HotstuffCore.reaches_iff]
    decide +kernel
  · apply (atVote (mixedVotes.take 4) ⟨voteOf 2 secondHash, 2, 2⟩
      [⟨voteOf 0 secondHash, 2, 0⟩] rfl).2
    · unfold HotstuffCore.BringsTo
      decide +kernel
    · decide +kernel

end Hotstuff
