import Hotstuff.OrderedMap
import Hotstuff.SymbolicCrypto
import Hotstuff.ChainedVoting

/-!
# Replica configuration

`ReplicaConfig` maps replica ids to their public keys.  After all replicas
have been added, `finish_init` fixes the quorum threshold.  This file computes
the threshold for every number of replicas and relates it to the number of
faults that the two quorums of a pair must be able to outvote.
-/

namespace Hotstuff

section Configuration

variable [WireTypes]

/-- The identity of a replica.  Host name, ports and data folder are only used
to reach the replica and are left out. -/
structure ReplicaInfo where
  id : ReplicaID
  pk : PublicKey

structure ReplicaConfig where
  replicaMap : OrderedMap ReplicaInfo
  nreplicas : Nat
  nmajority : Nat

namespace ReplicaConfig

def empty : ReplicaConfig where
  replicaMap := .empty
  nreplicas := 0
  nmajority := 0

def addReplica (config : ReplicaConfig) (info : ReplicaInfo) :
    Except String ReplicaConfig :=
  match config.replicaMap.find? info.id with
  | some _ => .error "can't add replicaid twice!"
  | none => .ok
      { config with
        replicaMap := config.replicaMap.emplace info.id info
        nreplicas := config.nreplicas + 1 }

/-- The number of tolerated faults that `finish_init` computes and reports. -/
def nfaulty (config : ReplicaConfig) : Nat := config.nreplicas / 3

def finishInit (config : ReplicaConfig) : ReplicaConfig :=
  { config with nmajority := config.nreplicas - config.nfaulty }

def getInfo (config : ReplicaConfig) (rid : ReplicaID) :
    Except String ReplicaInfo :=
  match config.replicaMap.find? rid with
  | none => .error ("rid" ++ toString rid ++ "not found")
  | some info => .ok info

def getPublickey (config : ReplicaConfig) (rid : ReplicaID) :
    Except String PublicKey := do
  let info ← config.getInfo rid
  return info.pk

def isValidReplica (config : ReplicaConfig) (rid : ReplicaID) : Bool :=
  (config.replicaMap.find? rid).isSome

/-- The configured replica ids. -/
def ids (config : ReplicaConfig) : Finset ReplicaID :=
  config.replicaMap.keys.toFinset

/-- Add all replicas to a fresh configuration, then call `finish_init`. -/
def build (infos : List ReplicaInfo) : Except String ReplicaConfig := do
  let config ← infos.foldlM addReplica empty
  return config.finishInit

/-! ### What the calls establish -/

/-- Every entry is filed under its own id, and the counter counts the
entries. -/
structure Counted (config : ReplicaConfig) : Prop where
  counted : config.nreplicas = config.replicaMap.size
  keyed : ∀ entry ∈ config.replicaMap.entries, entry.2.id = entry.1

theorem Counted.empty : Counted ReplicaConfig.empty where
  counted := rfl
  keyed := by
    intro entry member
    cases member

theorem addReplica_cases {config next : ReplicaConfig} {info : ReplicaInfo}
    (added : config.addReplica info = .ok next) :
    info.id ∉ config.replicaMap.keys ∧
      next = { config with
        replicaMap := config.replicaMap.emplace info.id info
        nreplicas := config.nreplicas + 1 } := by
  unfold addReplica at added
  split at added
  · cases added
  · rename_i absent
    exact ⟨OrderedMap.find?_eq_none_iff.mp absent,
      (Except.ok.inj added).symm⟩

theorem mem_ids_emplace (map : OrderedMap ReplicaInfo) (info : ReplicaInfo)
    (rid : ReplicaID) :
    rid ∈ (map.emplace info.id info).keys ↔ rid = info.id ∨ rid ∈ map.keys :=
  OrderedMap.mem_keys_insertWith _ map info.id info rid

theorem size_emplace_of_notMem {map : OrderedMap ReplicaInfo}
    {info : ReplicaInfo} (absent : info.id ∉ map.keys) :
    (map.emplace info.id info).size = map.size + 1 := by
  have keysEq : (map.emplace info.id info).keys.toFinset =
      insert info.id map.keys.toFinset := by
    ext rid
    simp [mem_ids_emplace]
  rw [← OrderedMap.card_keys, keysEq,
    Finset.card_insert_of_notMem (by simpa using absent),
    OrderedMap.card_keys]

theorem Counted.addReplica {config next : ReplicaConfig} {info : ReplicaInfo}
    (valid : config.Counted) (added : config.addReplica info = .ok next) :
    next.Counted ∧ next.nreplicas = config.nreplicas + 1 ∧
      next.ids = insert info.id config.ids := by
  obtain ⟨absent, rfl⟩ := addReplica_cases added
  refine ⟨⟨?_, ?_⟩, rfl, ?_⟩
  · simp [size_emplace_of_notMem absent, valid.counted]
  · intro entry member
    rcases OrderedMap.mem_emplace member with old | rfl
    · exact valid.keyed entry old
    · rfl
  · ext rid
    simp [ids, mem_ids_emplace]

/-- Adding a list of replicas, from any counted configuration. -/
theorem Counted.addReplicas {infos : List ReplicaInfo}
    {config final : ReplicaConfig} (valid : config.Counted)
    (added : infos.foldlM ReplicaConfig.addReplica config = .ok final) :
    final.Counted ∧ final.nreplicas = config.nreplicas + infos.length ∧
      final.ids = config.ids ∪ (infos.map ReplicaInfo.id).toFinset := by
  induction infos generalizing config with
  | nil =>
      obtain rfl : config = final := Except.ok.inj added
      simp [valid]
  | cons info infos ih =>
      rw [List.foldlM_cons] at added
      cases first : config.addReplica info with
      | error message => simp [first, bind, Except.bind] at added
      | ok next =>
          rw [first] at added
          obtain ⟨nextValid, nextCount, nextIds⟩ := valid.addReplica first
          obtain ⟨finalValid, finalCount, finalIds⟩ := ih nextValid added
          refine ⟨finalValid, ?_, ?_⟩
          · simp only [List.length_cons]
            omega
          · rw [finalIds, nextIds]
            ext rid
            simp only [Finset.mem_union, Finset.mem_insert, List.mem_toFinset,
              List.map_cons, List.mem_cons]
            tauto

theorem isValidReplica_iff {config : ReplicaConfig} {rid : ReplicaID} :
    config.isValidReplica rid = true ↔ rid ∈ config.ids := by
  rw [isValidReplica, Option.isSome_iff_ne_none, ne_eq,
    OrderedMap.find?_eq_none_iff, not_not, ids, List.mem_toFinset]

theorem build_cases {infos : List ReplicaInfo} {config : ReplicaConfig}
    (built : build infos = .ok config) :
    ∃ final : ReplicaConfig,
      infos.foldlM addReplica empty = .ok final ∧
        config = final.finishInit := by
  unfold build at built
  cases result : infos.foldlM addReplica empty with
  | error message => simp [result, bind, Except.bind] at built
  | ok final =>
      rw [result] at built
      exact ⟨final, rfl, (Except.ok.inj built).symm⟩

/-- The finished configuration of any list of added replicas. -/
theorem build_spec {infos : List ReplicaInfo} {config : ReplicaConfig}
    (built : build infos = .ok config) :
    config.Counted ∧ config.nreplicas = infos.length ∧
      config.ids = (infos.map ReplicaInfo.id).toFinset ∧
      config.ids.card = infos.length ∧
      config.nmajority = infos.length - infos.length / 3 := by
  obtain ⟨final, added, rfl⟩ := build_cases built
  obtain ⟨valid, count, idsEq⟩ := Counted.empty.addReplicas added
  have sizeEq : final.nreplicas = infos.length := by
    simpa [ReplicaConfig.empty] using count
  refine ⟨⟨valid.counted, valid.keyed⟩, sizeEq, ?_, ?_, ?_⟩
  · simpa [ids, finishInit, ReplicaConfig.empty, OrderedMap.keys,
      OrderedMap.empty] using idsEq
  · have card := final.replicaMap.card_keys
    rw [← valid.counted, sizeEq] at card
    exact card
  · simp [finishInit, nfaulty, sizeEq]

/-! ### Quorum intersection -/

/-- The two demands on the threshold: any two quorums have a replica in common
even after all tolerated faults are discounted, and the replicas that are left
when the tolerated faults are silent still form a quorum. -/
structure FaultTolerant (config : ReplicaConfig) : Prop where
  intersect : ∀ first ⊆ config.ids, ∀ second ⊆ config.ids,
    config.nmajority ≤ first.card → config.nmajority ≤ second.card →
      config.nfaulty + 1 ≤ (first ∩ second).card
  live : ∀ correct ⊆ config.ids,
    correct.card = config.nreplicas - config.nfaulty →
      config.nmajority ≤ correct.card

omit [WireTypes] in
/-- When a third of the replicas is tolerated exactly, two quorums can be
chosen that share no more than the tolerated faults. -/
theorem exists_small_intersection {ids : Finset ReplicaID} {third : Nat}
    (size : ids.card = 3 * third) :
    ∃ first ⊆ ids, ∃ second ⊆ ids, first.card = 2 * third ∧
      second.card = 2 * third ∧ (first ∩ second).card ≤ third := by
  obtain ⟨first, firstSub, firstCard⟩ :=
    Finset.exists_subset_card_eq (s := ids) (n := 2 * third) (by omega)
  obtain ⟨shared, sharedSub, sharedCard⟩ :=
    Finset.exists_subset_card_eq (s := first) (n := third) (by omega)
  have outside : (ids \ first).card = third := by
    rw [Finset.card_sdiff_of_subset firstSub]
    omega
  have apart : Disjoint (ids \ first) shared :=
    Finset.sdiff_disjoint.mono_right sharedSub
  refine ⟨first, firstSub, (ids \ first) ∪ shared, ?_, firstCard, ?_, ?_⟩
  · exact Finset.union_subset Finset.sdiff_subset (sharedSub.trans firstSub)
  · rw [Finset.card_union_of_disjoint apart]
    omega
  · rw [Finset.inter_union_distrib_left, Finset.inter_sdiff_self,
      Finset.empty_union]
    exact (Finset.card_le_card Finset.inter_subset_right).trans sharedCard.le

/-- `finish_init` chooses a fault tolerant threshold exactly when the number
of replicas is not a multiple of three: there `nreplicas / 3` counts one fault
too many. -/
theorem finishInit_faultTolerant_iff {infos : List ReplicaInfo}
    {config : ReplicaConfig} (built : build infos = .ok config)
    (nonempty : infos ≠ []) :
    config.FaultTolerant ↔ infos.length % 3 ≠ 0 := by
  obtain ⟨-, count, -, card, majority⟩ := build_spec built
  have faults : config.nfaulty = infos.length / 3 := by
    rw [nfaulty, count]
  have positive : 0 < infos.length := List.length_pos_iff.mpr nonempty
  constructor
  · intro tolerant multiple
    obtain ⟨first, firstSub, second, secondSub, firstCard, secondCard, small⟩ :=
      exists_small_intersection
        (show config.ids.card = 3 * (infos.length / 3) by omega)
    have large := tolerant.intersect first firstSub second secondSub
      (by omega) (by omega)
    omega
  · intro notMultiple
    refine ⟨?_, ?_⟩
    · intro first firstSub second secondSub firstLarge secondLarge
      have counted := card_add_card_le_inter firstSub secondSub
      omega
    · intro correct _ size
      omega

end ReplicaConfig

end Configuration

open scoped Symbolic

/-- Replicas `0, 1, …` whose public key is their id. -/
def Symbolic.replicas (number : Nat) : List ReplicaInfo :=
  (List.range number).map fun id => { id := id, pk := id }

namespace ReplicaConfig

theorem four_replicas_faultTolerant :
    ∃ config, build (Symbolic.replicas 4) = .ok config ∧
      config.FaultTolerant := by
  have built : build (Symbolic.replicas 4) = .ok _ := rfl
  exact ⟨_, built,
    (finishInit_faultTolerant_iff built (by decide)).mpr (by decide)⟩

/-- Three replicas: the quorums `{0, 1}` and `{1, 2}` share one replica, which
is one of the tolerated faults. -/
theorem three_replicas_quorums :
    ∃ config, build (Symbolic.replicas 3) = .ok config ∧
      config.nfaulty = 1 ∧ config.nmajority = 2 ∧
      {0, 1} ⊆ config.ids ∧ {1, 2} ⊆ config.ids ∧
      config.nmajority ≤ ({0, 1} : Finset ReplicaID).card ∧
      config.nmajority ≤ ({1, 2} : Finset ReplicaID).card ∧
      ¬ config.nfaulty + 1 ≤ (({0, 1} : Finset ReplicaID) ∩ {1, 2}).card := by
  refine ⟨_, rfl, ?_⟩
  decide

end ReplicaConfig

end Hotstuff
