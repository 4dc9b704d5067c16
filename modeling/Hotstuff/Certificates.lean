import Hotstuff.ReplicaConfig
import Mathlib.Data.List.Sort

/-!
# Partial and quorum certificates

A quorum certificate collects the signatures of distinct replicas on one
hash, in an ordered map keyed by replica id.  On the wire the signers are a
bitmap and the signatures a list in id order.  This file models building,
serialising, decoding and verifying certificates, and proves what the
consensus core relies on: decoding inverts serialisation, and a certificate
that verifies names a quorum of configured replicas with valid signatures.
-/

namespace Hotstuff

variable [WireTypes] [Externals]

/-- `PartialCertificate` adds no data to its wire form. -/
abbrev PartialCertificate := PartialCertificateWire

/-- Sign a hash with the own secret key. -/
def PartialCertificate.sign (hash : Hash) (sk : SecretKey) :
    PartialCertificate where
  hash := hash
  sig := cryptoSign hash sk

def PartialCertificate.validate (cert : PartialCertificate)
    (info : ReplicaInfo) : Bool :=
  checkSig cert.sig cert.hash info.pk

@[ext]
structure QuorumCertificate where
  objHash : Hash
  sigs : OrderedMap Signature

namespace QuorumCertificate

def new (objHash : Hash) : QuorumCertificate where
  objHash := objHash
  sigs := .empty

/-- Pop one signer per signature, lowest id first. -/
def popSigs (sigs : OrderedMap Signature) :
    ReplicaIDBitMap → List Signature → OrderedMap Signature
  | _, [] => sigs
  | bv, sig :: rest =>
      let popped := Externals.bitVectorPop bv
      popSigs (sigs.emplace popped.1 sig) popped.2 rest

/-- The certificate of a wire value.  When the bitmap does not match the
number of signatures the certificate is left without signatures. -/
def ofWire (wire : QuorumCertificateWire) : QuorumCertificate :=
  if Externals.bitVectorSize wire.bmp ≠ wire.sigs.length then
    new wire.justify
  else
    { objHash := wire.justify
      sigs := popSigs .empty wire.bmp wire.sigs }

def serialize (qc : QuorumCertificate) : QuorumCertificateWire where
  justify := qc.objHash
  bmp := qc.sigs.keys.foldl Externals.bitVectorAdd 0
  sigs := qc.sigs.entries.map Prod.snd

def addPartialCertificate (qc : QuorumCertificate) (rid : ReplicaID)
    (pc : PartialCertificate) : Except String QuorumCertificate :=
  if pc.hash ≠ qc.objHash then
    .error "partial certificate merged into different quorum certificate"
  else if maxReplicas ≤ rid then
    .error "invalid replica id"
  else
    .ok { qc with sigs := qc.sigs.emplace rid pc.sig }

/-- Count the valid signatures; looking up a signer that is not configured
raises. -/
def countValid (config : ReplicaConfig) (objHash : Hash) :
    List (ReplicaID × Signature) → Except String Nat
  | [] => .ok 0
  | (rid, sig) :: rest => do
      let pk ← config.getPublickey rid
      let others ← countValid config objHash rest
      return (if checkSig sig objHash pk then others + 1 else others)

def verify (qc : QuorumCertificate) (config : ReplicaConfig) :
    Except String Bool :=
  if qc.objHash = zeroHash then .ok true
  else if qc.sigs.size < config.nmajority then .ok false
  else do
    let nValid ← countValid config qc.objHash qc.sigs.entries
    return decide (config.nmajority ≤ nValid)

def hasQuorum (qc : QuorumCertificate) (config : ReplicaConfig) : Bool :=
  decide (config.nmajority ≤ qc.sigs.size)

/-! ### Decoding inverts serialisation -/

/-- The bits added to a bitmap are the old ones and the added ones. -/
theorem mem_members_foldl {rids : List ReplicaID}
    (small : ∀ rid ∈ rids, rid < 32) (bmp : ReplicaIDBitMap) (bit : ReplicaID) :
    bit ∈ (rids.foldl Externals.bitVectorAdd bmp).members ↔
      bit ∈ rids ∨ bit ∈ bmp.members := by
  induction rids generalizing bmp with
  | nil => simp
  | cons rid rids ih =>
      have smallRest : ∀ other ∈ rids, other < 32 := fun other member =>
        small other (List.mem_cons_of_mem _ member)
      rw [List.foldl_cons, ih smallRest,
        Externals.mem_bitVectorAdd bmp rid (small rid (by simp)) bit]
      simp only [List.mem_cons]
      tauto

/-- The bitmap of a certificate has exactly the signers as members. -/
theorem members_serialize {qc : QuorumCertificate}
    (small : ∀ rid ∈ qc.sigs.keys, rid < maxReplicas) :
    qc.serialize.bmp.members = qc.sigs.keys := by
  have sortedKeys : qc.sigs.keys.Pairwise (· < ·) :=
    List.pairwise_map.mpr qc.sigs.sorted
  refine List.Pairwise.eq_of_mem_iff (r := (· < ·))
    (ReplicaIDBitMap.members_sorted _) sortedKeys ?_
  intro bit
  have none : ReplicaIDBitMap.members 0 = [] := ReplicaIDBitMap.members_zero
  rw [serialize, mem_members_foldl small, none]
  simp

/-- Popping the members of a bitmap in step with the signatures rebuilds the
entries. -/
theorem entries_popSigs {rest : List (Nat × Signature)}
    {sigs : OrderedMap Signature} {bmp : ReplicaIDBitMap}
    (members : bmp.members = rest.map Prod.fst)
    (sorted : (sigs.entries ++ rest).Pairwise fun a b => a.1 < b.1) :
    (popSigs sigs bmp (rest.map Prod.snd)).entries = sigs.entries ++ rest := by
  induction rest generalizing sigs bmp with
  | nil => simp [popSigs]
  | cons entry rest ih =>
      obtain ⟨rid, sig⟩ := entry
      obtain ⟨popped, remaining⟩ :=
        Externals.bitVectorPop_eq bmp rid (rest.map Prod.fst) members
      have below : ∀ other ∈ sigs.entries, other.1 < rid := fun other member =>
        (List.pairwise_append.mp sorted).2.2 other member (rid, sig) (by simp)
      have extended : (sigs.emplace rid sig).entries =
          sigs.entries ++ [(rid, sig)] :=
        OrderedMap.insertEntry_append _ rid sig below
      simp only [List.map_cons, popSigs, popped]
      rw [ih remaining (by simpa [extended] using sorted), extended]
      simp

theorem ofWire_serialize {qc : QuorumCertificate}
    (small : ∀ rid ∈ qc.sigs.keys, rid < maxReplicas) :
    ofWire qc.serialize = qc := by
  have members := members_serialize small
  have sizeEq : Externals.bitVectorSize qc.serialize.bmp =
      qc.serialize.sigs.length := by
    rw [Externals.bitVectorSize_eq, members]
    simp [serialize, OrderedMap.keys]
  rw [ofWire, if_neg (not_not.mpr sizeEq)]
  refine QuorumCertificate.ext rfl (OrderedMap.ext ?_)
  have sorted :
      ((OrderedMap.empty : OrderedMap Signature).entries ++
        qc.sigs.entries).Pairwise fun a b => a.1 < b.1 := by
    simpa [OrderedMap.empty] using qc.sigs.sorted
  simpa [OrderedMap.empty, serialize] using entries_popSigs members sorted

/-- A bitmap that matches the number of signatures names the signer of each. -/
theorem entries_ofWire {wire : QuorumCertificateWire}
    (matching : wire.bmp.members.length = wire.sigs.length) :
    (ofWire wire).sigs.entries = wire.bmp.members.zip wire.sigs := by
  have firsts : wire.bmp.members =
      (wire.bmp.members.zip wire.sigs).map Prod.fst :=
    (List.map_fst_zip matching.le).symm
  have sorted :
      ((OrderedMap.empty : OrderedMap Signature).entries ++
        wire.bmp.members.zip wire.sigs).Pairwise fun a b => a.1 < b.1 := by
    have membersSorted := wire.bmp.members_sorted
    rw [firsts] at membersSorted
    simpa [OrderedMap.empty] using List.pairwise_map.mp membersSorted
  have entries := entries_popSigs firsts sorted
  rw [List.map_snd_zip matching.ge] at entries
  rw [ofWire, if_neg (not_not.mpr
    ((Externals.bitVectorSize_eq wire.bmp).trans matching))]
  simpa [OrderedMap.empty] using entries

/-- Otherwise the certificate has no signatures. -/
theorem entries_ofWire_of_mismatch {wire : QuorumCertificateWire}
    (mismatch : wire.bmp.members.length ≠ wire.sigs.length) :
    (ofWire wire).sigs.entries = [] := by
  rw [ofWire, if_pos (by rwa [Externals.bitVectorSize_eq])]
  rfl

/-- A decoded certificate has the signers of its bitmap, if it has any. -/
theorem keys_ofWire_lt (wire : QuorumCertificateWire) :
    ∀ rid ∈ (ofWire wire).sigs.keys, rid < maxReplicas := by
  intro rid member
  rw [OrderedMap.keys] at member
  by_cases matching : wire.bmp.members.length = wire.sigs.length
  · rw [entries_ofWire matching, List.map_fst_zip matching.le] at member
    exact ReplicaIDBitMap.lt_of_mem_members member
  · rw [entries_ofWire_of_mismatch matching] at member
    cases member

@[simp]
theorem objHash_ofWire (wire : QuorumCertificateWire) :
    (ofWire wire).objHash = wire.justify := by
  unfold ofWire
  split <;> rfl

@[simp]
theorem justify_serialize (qc : QuorumCertificate) :
    qc.serialize.justify = qc.objHash := rfl

/-! ### Verification -/

/-- The entry's signer is configured and its signature is valid. -/
def signerValid (config : ReplicaConfig) (objHash : Hash)
    (entry : ReplicaID × Signature) : Bool :=
  match config.getPublickey entry.1 with
  | .error _ => false
  | .ok pk => checkSig entry.2 objHash pk

theorem countValid_eq {config : ReplicaConfig} {objHash : Hash}
    {entries : List (ReplicaID × Signature)} {count : Nat}
    (counted : countValid config objHash entries = .ok count) :
    count = (entries.filter (signerValid config objHash)).length := by
  induction entries generalizing count with
  | nil =>
      obtain rfl : 0 = count := Except.ok.inj counted
      rfl
  | cons entry rest ih =>
      obtain ⟨rid, sig⟩ := entry
      cases key : config.getPublickey rid with
      | error message => simp [countValid, key, bind, Except.bind] at counted
      | ok pk =>
          cases others : countValid config objHash rest with
          | error message =>
              simp [countValid, key, others, bind, Except.bind] at counted
          | ok number =>
              have valid : signerValid config objHash (rid, sig) =
                  checkSig sig objHash pk := by
                simp [signerValid, key]
              simp only [countValid, key, others, bind, Except.bind, pure,
                Except.pure, Except.ok.injEq] at counted
              subst counted
              rw [List.filter_cons, valid]
              split <;> simp [ih others]

theorem countValid_of_valid {config : ReplicaConfig} {objHash : Hash}
    {entries : List (ReplicaID × Signature)}
    (valid : ∀ entry ∈ entries, signerValid config objHash entry = true) :
    countValid config objHash entries = .ok entries.length := by
  induction entries with
  | nil => rfl
  | cons entry rest ih =>
      obtain ⟨rid, sig⟩ := entry
      have here := valid (rid, sig) (by simp)
      have others := ih fun entry member =>
        valid entry (List.mem_cons_of_mem _ member)
      unfold signerValid at here
      cases key : config.getPublickey rid with
      | error message => simp [key] at here
      | ok pk =>
          simp only [key] at here
          simp [countValid, key, others, here, bind, Except.bind, pure,
            Except.pure]

omit [Externals] in
theorem mem_ids_of_getPublickey {config : ReplicaConfig} {rid : ReplicaID}
    {pk : PublicKey} (found : config.getPublickey rid = .ok pk) :
    rid ∈ config.ids := by
  unfold ReplicaConfig.getPublickey ReplicaConfig.getInfo at found
  cases entry : config.replicaMap.find? rid with
  | none => simp [entry, bind, Except.bind] at found
  | some info =>
      have present : (config.replicaMap.find? rid).isSome := by simp [entry]
      simpa [ReplicaConfig.ids] using OrderedMap.find?_isSome_iff.mp present

/-- The signers of a certificate whose signatures are all valid. -/
def validSigners (qc : QuorumCertificate) (config : ReplicaConfig) :
    Finset ReplicaID :=
  ((qc.sigs.entries.filter (signerValid config qc.objHash)).map
    Prod.fst).toFinset

theorem mem_validSigners {qc : QuorumCertificate} {config : ReplicaConfig}
    {rid : ReplicaID} :
    rid ∈ qc.validSigners config ↔
      ∃ sig, (rid, sig) ∈ qc.sigs.entries ∧
        signerValid config qc.objHash (rid, sig) = true := by
  simp [validSigners]

theorem validSigners_subset (qc : QuorumCertificate) (config : ReplicaConfig) :
    qc.validSigners config ⊆ config.ids := by
  intro rid member
  obtain ⟨sig, -, valid⟩ := mem_validSigners.mp member
  unfold signerValid at valid
  cases key : config.getPublickey rid with
  | error message => simp [key] at valid
  | ok pk => exact mem_ids_of_getPublickey key

theorem card_validSigners (qc : QuorumCertificate) (config : ReplicaConfig) :
    (qc.validSigners config).card =
      (qc.sigs.entries.filter (signerValid config qc.objHash)).length := by
  have kept : ((qc.sigs.entries.filter
      (signerValid config qc.objHash)).map Prod.fst).Nodup :=
    (List.filter_sublist.map Prod.fst).nodup qc.sigs.keys_nodup
  rw [validSigners, List.toFinset_card_of_nodup kept, List.length_map]

/-- A certificate that verifies on anything but the genesis hash carries valid
signatures of a quorum of configured replicas. -/
theorem quorum_of_verify {qc : QuorumCertificate} {config : ReplicaConfig}
    (verified : qc.verify config = .ok true) (proper : qc.objHash ≠ zeroHash) :
    config.nmajority ≤ (qc.validSigners config).card := by
  rw [verify, if_neg proper] at verified
  split at verified
  · cases verified
  · cases counted : countValid config qc.objHash qc.sigs.entries with
    | error message => simp [counted, bind, Except.bind] at verified
    | ok count =>
        simp only [counted, bind, Except.bind, pure, Except.pure,
          Except.ok.injEq, decide_eq_true_eq] at verified
        rw [card_validSigners, ← countValid_eq counted]
        exact verified

/-- A certificate with a quorum of entries, all of them valid, verifies. -/
theorem verify_of_valid {qc : QuorumCertificate} {config : ReplicaConfig}
    (valid : ∀ entry ∈ qc.sigs.entries,
      signerValid config qc.objHash entry = true)
    (quorum : qc.hasQuorum config = true) :
    qc.verify config = .ok true := by
  have large : config.nmajority ≤ qc.sigs.size := by
    simpa [hasQuorum] using quorum
  rw [verify]
  split
  · rfl
  · rw [if_neg (Nat.not_lt.mpr large), countValid_of_valid valid]
    simpa [bind, Except.bind, pure, Except.pure, OrderedMap.size] using large

omit [Externals] in
/-- A certificate accepts votes on its own hash, and keeps the first vote of
each replica. -/
theorem addPartialCertificate_cases {qc extended : QuorumCertificate}
    {rid : ReplicaID} {pc : PartialCertificate}
    (added : qc.addPartialCertificate rid pc = .ok extended) :
    extended.objHash = qc.objHash ∧
      ∀ entry ∈ extended.sigs.entries,
        entry ∈ qc.sigs.entries ∨ entry = (rid, pc.sig) := by
  unfold addPartialCertificate at added
  split at added
  · cases added
  · split at added
    · cases added
    · obtain rfl := Except.ok.inj added
      exact ⟨rfl, fun entry member => OrderedMap.mem_emplace member⟩

end QuorumCertificate

end Hotstuff
