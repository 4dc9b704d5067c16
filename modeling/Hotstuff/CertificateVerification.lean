import Hotstuff.Certificates

/-!
# Verifying certificates from the wire

The wire form of a certificate comes from another replica, which may put
anything into it.  This file compares what `verify` answers for the decoded
certificate with what the certificate says: the signer of the i-th signature is
the i-th set bit of the bitmap.

Looking up the public key of an id that is not configured raises an exception,
and `verify` looks up every signer.
-/

namespace Hotstuff

section Verification

variable [WireTypes] [Externals]

namespace QuorumCertificate

/-- The replica is configured and has, at its position, a valid signature. -/
def SignedBy (config : ReplicaConfig) (wire : QuorumCertificateWire)
    (rid : ReplicaID) : Prop :=
  ∃ (position : Nat) (sig : Signature) (pk : PublicKey),
    wire.bmp.members[position]? = some rid ∧
    wire.sigs[position]? = some sig ∧ config.getPublickey rid = .ok pk ∧
    checkSig sig wire.justify pk = true

/-- What a certificate has to show: it is about genesis, or its bitmap matches
its signatures and a quorum of configured replicas has signed. -/
def Proves (config : ReplicaConfig) (wire : QuorumCertificateWire) : Prop :=
  wire.justify = zeroHash ∨
    wire.bmp.members.length = wire.sigs.length ∧
      ∃ signers ⊆ config.ids, config.nmajority ≤ signers.card ∧
        ∀ rid ∈ signers, SignedBy config wire rid

omit [Externals] in
theorem getPublickey_of_mem {config : ReplicaConfig} {rid : ReplicaID}
    (configured : rid ∈ config.ids) : ∃ pk, config.getPublickey rid = .ok pk := by
  have present : (config.replicaMap.find? rid).isSome :=
    OrderedMap.find?_isSome_iff.mpr (List.mem_toFinset.mp configured)
  obtain ⟨info, found⟩ := Option.isSome_iff_exists.mp present
  refine ⟨info.pk, ?_⟩
  simp [ReplicaConfig.getPublickey, ReplicaConfig.getInfo, found, bind,
    Except.bind, pure, Except.pure]

/-- Counting succeeds exactly when all signers are configured. -/
theorem countValid_ok_iff {config : ReplicaConfig} {objHash : Hash}
    {entries : List (ReplicaID × Signature)} :
    (∃ count, countValid config objHash entries = .ok count) ↔
      ∀ entry ∈ entries, entry.1 ∈ config.ids := by
  induction entries with
  | nil => simp [countValid]
  | cons entry rest ih =>
      obtain ⟨rid, sig⟩ := entry
      constructor
      · rintro ⟨count, counted⟩
        cases key : config.getPublickey rid with
        | error message => simp [countValid, key, bind, Except.bind] at counted
        | ok pk =>
            cases others : countValid config objHash rest with
            | error message =>
                simp [countValid, key, others, bind, Except.bind] at counted
            | ok number =>
                intro entry member
                rcases List.mem_cons.mp member with rfl | later
                · exact mem_ids_of_getPublickey key
                · exact ih.mp ⟨number, others⟩ entry later
      · intro configured
        obtain ⟨pk, key⟩ := getPublickey_of_mem (configured (rid, sig) (by simp))
        obtain ⟨number, others⟩ := ih.mpr fun entry member =>
          configured entry (List.mem_cons_of_mem _ member)
        simp [countValid, key, others, bind, Except.bind, pure, Except.pure]

/-- The valid signers of a decoded certificate are those who signed at their
position. -/
theorem mem_validSigners_ofWire {config : ReplicaConfig}
    {wire : QuorumCertificateWire} {rid : ReplicaID}
    (matching : wire.bmp.members.length = wire.sigs.length) :
    rid ∈ (ofWire wire).validSigners config ↔ SignedBy config wire rid := by
  rw [mem_validSigners, entries_ofWire matching, objHash_ofWire]
  constructor
  · rintro ⟨sig, member, valid⟩
    obtain ⟨position, bound, found⟩ := List.mem_iff_getElem.mp member
    rw [List.length_zip] at bound
    rw [List.getElem_zip] at found
    obtain ⟨here, signature⟩ := Prod.mk.inj found
    unfold signerValid at valid
    cases key : config.getPublickey rid with
    | error message => simp [key] at valid
    | ok pk =>
        simp only [key] at valid
        refine ⟨position, sig, pk, ?_, ?_, key, valid⟩
        · rw [← here]
          exact List.getElem?_eq_getElem (by omega)
        · rw [← signature]
          exact List.getElem?_eq_getElem (by omega)
  · rintro ⟨position, sig, pk, here, signature, key, valid⟩
    refine ⟨sig, ?_, ?_⟩
    · obtain ⟨bound, here⟩ := List.getElem?_eq_some_iff.mp here
      obtain ⟨bound', signature⟩ := List.getElem?_eq_some_iff.mp signature
      refine List.mem_iff_getElem.mpr ⟨position, ?_, ?_⟩
      · rw [List.length_zip]
        omega
      · rw [List.getElem_zip, here, signature]
    · simp only [signerValid, key, valid]

/-- A quorum has signed exactly when there are enough valid signers. -/
theorem proves_iff {config : ReplicaConfig} {wire : QuorumCertificateWire}
    (proper : wire.justify ≠ zeroHash)
    (matching : wire.bmp.members.length = wire.sigs.length) :
    Proves config wire ↔
      config.nmajority ≤ ((ofWire wire).validSigners config).card := by
  constructor
  · rintro (genesis | ⟨-, signers, -, quorum, signed⟩)
    · exact (proper genesis).elim
    · refine quorum.trans (Finset.card_le_card fun rid member => ?_)
      exact (mem_validSigners_ofWire matching).mpr (signed rid member)
  · intro quorum
    refine Or.inr ⟨matching, _, validSigners_subset _ _, quorum, ?_⟩
    intro rid member
    exact (mem_validSigners_ofWire matching).mp member

/-- `verify` on a certificate that is not about genesis. -/
theorem verify_of_ne_zero {qc : QuorumCertificate} {config : ReplicaConfig}
    (proper : qc.objHash ≠ zeroHash) :
    (∃ answer, qc.verify config = .ok answer) ↔
      qc.sigs.size < config.nmajority ∨
        ∀ entry ∈ qc.sigs.entries, entry.1 ∈ config.ids := by
  rw [verify, if_neg proper]
  by_cases short : qc.sigs.size < config.nmajority
  · simp [short]
  · rw [if_neg short, ← countValid_ok_iff ]
    constructor
    · rintro ⟨answer, verified⟩
      cases counted : countValid config qc.objHash qc.sigs.entries with
      | error message => simp [counted, bind, Except.bind] at verified
      | ok count => exact Or.inr ⟨count, rfl⟩
    · rintro (impossible | ⟨count, counted⟩)
      · exact (short impossible).elim
      · simp [counted, bind, Except.bind, pure, Except.pure]

theorem verify_ok_iff {qc : QuorumCertificate} {config : ReplicaConfig}
    {answer : Bool} (proper : qc.objHash ≠ zeroHash)
    (verified : qc.verify config = .ok answer) :
    answer = true ↔ config.nmajority ≤ (qc.validSigners config).card := by
  constructor
  · rintro rfl
    exact quorum_of_verify verified proper
  · intro quorum
    rw [verify, if_neg proper] at verified
    have enough : (qc.validSigners config).card ≤ qc.sigs.size := by
      rw [card_validSigners]
      exact List.length_filter_le _ _
    rw [if_neg (by omega)] at verified
    cases counted : countValid config qc.objHash qc.sigs.entries with
    | error message => simp [counted, bind, Except.bind] at verified
    | ok count =>
        have counts := countValid_eq counted
        rw [← card_validSigners] at counts
        simp only [counted, bind, Except.bind, pure, Except.pure,
          Except.ok.injEq] at verified
        rw [← verified]
        simpa [counts] using quorum

/-- The answer for the certificate is there, and it is the right one. -/
def Exact (config : ReplicaConfig) (wire : QuorumCertificateWire) : Prop :=
  ∃ answer, (ofWire wire).verify config = .ok answer ∧
    (answer = true ↔ Proves config wire)

/-- Matching numbers: `verify` is exact unless it gets to look up the key of a
signer that is not configured. -/
theorem exact_of_matching {config : ReplicaConfig}
    {wire : QuorumCertificateWire} (proper : wire.justify ≠ zeroHash)
    (matching : wire.bmp.members.length = wire.sigs.length) :
    Exact config wire ↔
      wire.bmp.members.length < config.nmajority ∨
        ∀ rid ∈ wire.bmp.members, rid ∈ config.ids := by
  have properDecoded : (ofWire wire).objHash ≠ zeroHash := by
    rwa [objHash_ofWire]
  have size : (ofWire wire).sigs.size = wire.bmp.members.length := by
    rw [OrderedMap.size, entries_ofWire matching, List.length_zip]
    omega
  have signers : (∀ entry ∈ (ofWire wire).sigs.entries, entry.1 ∈ config.ids) ↔
      ∀ rid ∈ wire.bmp.members, rid ∈ config.ids := by
    rw [entries_ofWire matching, ← List.forall_mem_map (f := Prod.fst)
      (P := fun rid => rid ∈ config.ids), List.map_fst_zip matching.le]
  rw [← size, ← signers, ← verify_of_ne_zero properDecoded]
  constructor
  · rintro ⟨answer, verified, -⟩
    exact ⟨answer, verified⟩
  · rintro ⟨answer, verified⟩
    refine ⟨answer, verified, ?_⟩
    rw [proves_iff proper matching]
    exact verify_ok_iff properDecoded verified

/-- Numbers that do not match: the certificate is decoded without signatures,
and is rejected unless no signatures are needed. -/
theorem exact_of_mismatch {config : ReplicaConfig}
    {wire : QuorumCertificateWire} (proper : wire.justify ≠ zeroHash)
    (mismatch : wire.bmp.members.length ≠ wire.sigs.length) :
    Exact config wire ↔ config.nmajority ≠ 0 := by
  have unproved : ¬ Proves config wire := by
    rintro (genesis | ⟨matching, -⟩)
    · exact proper genesis
    · exact mismatch matching
  have answered : (ofWire wire).verify config =
      .ok (decide (config.nmajority = 0)) := by
    rw [verify, if_neg (by rwa [objHash_ofWire]), OrderedMap.size,
      entries_ofWire_of_mismatch mismatch]
    by_cases none : config.nmajority = 0
    · simp [none, countValid, bind, Except.bind, pure, Except.pure]
    · simp [none, Nat.pos_of_ne_zero none]
  constructor
  · rintro ⟨answer, verified, right⟩ none
    rw [answered] at verified
    obtain rfl := Except.ok.inj verified
    exact unproved (right.mp (by simpa using none))
  · intro some
    refine ⟨_, answered, ?_⟩
    simp [some, unproved]

end QuorumCertificate

open QuorumCertificate

/-- Which certificates are verified exactly, for any configuration.  A bitmap
with enough bits, one of them for an id that is not configured, makes `verify`
raise; and a configuration without replicas accepts certificates whose bitmap
does not match. -/
theorem verify_exact_iff {infos : List ReplicaInfo} {config : ReplicaConfig}
    (built : ReplicaConfig.build infos = .ok config)
    (wire : QuorumCertificateWire) :
    (∃ answer, (ofWire wire).verify config = .ok answer ∧
      (answer = true ↔ Proves config wire)) ↔
      wire.justify = zeroHash ∨
        if wire.bmp.members.length = wire.sigs.length then
          wire.bmp.members.length < config.nmajority ∨
            ∀ rid ∈ wire.bmp.members, rid ∈ config.ids
        else infos ≠ [] := by
  change Exact config wire ↔ _
  by_cases genesis : wire.justify = zeroHash
  · simp [Exact, Proves, verify, genesis]
  · rw [or_iff_right genesis]
    split
    · rename_i matching
      exact exact_of_matching genesis matching
    · rename_i mismatch
      obtain ⟨-, -, -, -, majority⟩ := ReplicaConfig.build_spec built
      rw [exact_of_mismatch genesis mismatch, majority, Ne, Ne,
        ← List.length_eq_zero_iff]
      omega

end Verification

open scoped Symbolic
open QuorumCertificate

/-- A certificate on the first hash after genesis, with the given signers, all
of whom have signed it. -/
def Symbolic.certificate (signers : List ReplicaID) : QuorumCertificateWire where
  justify := Symbolic.Term.leaf 1
  bmp := signers.foldl Externals.bitVectorAdd 0
  sigs := signers.map fun rid => cryptoSign (Symbolic.Term.leaf 1) rid

/-- Three signers out of four. -/
theorem verify_exact_three :
    ∃ config, ReplicaConfig.build (Symbolic.replicas 4) = .ok config ∧
      ∃ answer, (ofWire (Symbolic.certificate [0, 1, 3])).verify config =
        .ok answer ∧
        (answer = true ↔ Proves config (Symbolic.certificate [0, 1, 3])) := by
  have built : ReplicaConfig.build (Symbolic.replicas 4) = .ok _ := rfl
  refine ⟨_, built, (verify_exact_iff built _).mpr ?_⟩
  decide

/-- Three signers and one id that is not configured: the certificate proves
its block, and `verify` raises. -/
theorem verify_raises_unconfigured :
    ∃ config, ReplicaConfig.build (Symbolic.replicas 4) = .ok config ∧
      (ofWire (Symbolic.certificate [0, 1, 3, 7])).verify config =
        .error "rid7not found" := by
  refine ⟨_, rfl, ?_⟩
  decide

end Hotstuff
