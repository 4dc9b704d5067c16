import Hotstuff.Certificates

/-!
# The encoding of certificates

The encoder walks the signatures in the order of the replica ids and the decoder
pops the signers from the bitmap, so a signature finds its signer by position
only.  A certificate that was built from partial certificates comes back from
its wire form, a wire form with as many signatures as signers comes back from
its certificate, and the wire form does not depend on the order in which the
signatures came in.
-/

namespace Hotstuff

section Encoding

variable [WireTypes] [Externals]

namespace QuorumCertificate

omit [Externals]

/-- A replica id and the partial certificate that came with it. -/
abbrev Contribution := ReplicaID × PartialCertificate

/-- Offer a partial certificate; a call that throws changes nothing. -/
def offer (qc : QuorumCertificate) (contribution : Contribution) :
    QuorumCertificate :=
  match qc.addPartialCertificate contribution.1 contribution.2 with
  | .ok extended => extended
  | .error _ => qc

theorem offer_of_ok {qc extended : QuorumCertificate} {rid : ReplicaID}
    {pc : PartialCertificate}
    (accepted : qc.addPartialCertificate rid pc = .ok extended) :
    qc.offer (rid, pc) = extended := by
  simp only [offer, accepted]

theorem offer_of_error {qc : QuorumCertificate} {rid : ReplicaID}
    {pc : PartialCertificate} {message : String}
    (rejected : qc.addPartialCertificate rid pc = .error message) :
    qc.offer (rid, pc) = qc := by
  simp only [offer, rejected]

/-- A fresh certificate after a sequence of calls. -/
def collect (objHash : Hash) (contributions : List Contribution) :
    QuorumCertificate :=
  contributions.foldl offer (new objHash)

/-- The ids and signatures of the calls that do not throw. -/
def accepted (qc : QuorumCertificate) :
    List Contribution → List (ReplicaID × Signature)
  | [] => []
  | contribution :: rest =>
      match qc.addPartialCertificate contribution.1 contribution.2 with
      | .ok extended =>
          (contribution.1, contribution.2.sig) :: accepted extended rest
      | .error _ => accepted qc rest

/-! ### What a sequence of calls collects -/

variable {qc : QuorumCertificate}

/-- A call is accepted for the hash of the certificate and a small id. -/
theorem addPartialCertificate_eq (qc : QuorumCertificate) (rid : ReplicaID)
    (pc : PartialCertificate) :
    (∃ message, qc.addPartialCertificate rid pc = .error message) ∨
      rid < maxReplicas ∧ qc.addPartialCertificate rid pc =
        .ok { qc with sigs := qc.sigs.emplace rid pc.sig } := by
  unfold addPartialCertificate
  split
  · exact .inl ⟨_, rfl⟩
  · split
    · exact .inl ⟨_, rfl⟩
    · rename_i small
      exact .inr ⟨Nat.not_le.mp small, rfl⟩

/-- On the own hash and with small ids all calls are accepted. -/
theorem accepted_of_proper {contributions : List Contribution}
    (proper : ∀ cast ∈ contributions,
      cast.1 < maxReplicas ∧ cast.2.hash = qc.objHash) :
    qc.accepted contributions =
      contributions.map fun cast => (cast.1, cast.2.sig) := by
  induction contributions generalizing qc with
  | nil => rfl
  | cons cast rest ih =>
      obtain ⟨⟨small, sameHash⟩, properRest⟩ := List.forall_mem_cons.mp proper
      have added : qc.addPartialCertificate cast.1 cast.2 =
          .ok { qc with sigs := qc.sigs.emplace cast.1 cast.2.sig } := by
        rw [addPartialCertificate, if_neg (not_not.mpr sameHash),
          if_neg (Nat.not_le.mpr small)]
      simp only [accepted, added, List.map_cons]
      exact congrArg _ (ih properRest)

theorem objHash_foldl_offer (contributions : List Contribution) :
    (contributions.foldl offer qc).objHash = qc.objHash := by
  induction contributions generalizing qc with
  | nil => rfl
  | cons contribution rest ih =>
      rw [List.foldl_cons, ih]
      rcases addPartialCertificate_eq qc contribution.1 contribution.2 with
        ⟨message, rejected⟩ | ⟨-, added⟩
      · rw [offer_of_error rejected]
      · rw [offer_of_ok added]

theorem keys_foldl_offer_lt (contributions : List Contribution)
    (small : ∀ rid ∈ qc.sigs.keys, rid < maxReplicas) :
    ∀ rid ∈ (contributions.foldl offer qc).sigs.keys, rid < maxReplicas := by
  induction contributions generalizing qc with
  | nil => exact small
  | cons contribution rest ih =>
      apply ih
      rcases addPartialCertificate_eq qc contribution.1 contribution.2 with
        ⟨message, rejected⟩ | ⟨smallId, added⟩
      · rwa [offer_of_error rejected]
      · intro rid member
        rw [offer_of_ok added] at member
        rcases (OrderedMap.mem_keys_insertWith _ _ _ _ rid).mp member with
          rfl | old
        · exact smallId
        · exact small rid old

/-- A replica keeps the signature that it had, or else gets its first accepted
one. -/
theorem find?_foldl_offer (contributions : List Contribution)
    (rid : ReplicaID) :
    (contributions.foldl offer qc).sigs.find? rid =
      (qc.sigs.find? rid).or ((qc.accepted contributions).lookup rid) := by
  induction contributions generalizing qc with
  | nil => simp [accepted]
  | cons contribution rest ih =>
      rw [List.foldl_cons, ih]
      rcases addPartialCertificate_eq qc contribution.1 contribution.2 with
        ⟨message, rejected⟩ | ⟨-, added⟩
      · simp only [offer_of_error rejected, accepted, rejected]
      · simp only [offer_of_ok added, accepted, added,
          OrderedMap.find?_emplace, List.lookup_cons]
        by_cases same : rid = contribution.1
        · subst same
          cases old : qc.sigs.find? contribution.1 <;> simp
        · have different : (rid == contribution.1) = false := by
            simpa using same
          simp [same, different]

theorem find?_collect (objHash : Hash) (contributions : List Contribution)
    (rid : ReplicaID) :
    (collect objHash contributions).sigs.find? rid =
      ((new objHash).accepted contributions).lookup rid := by
  rw [collect, find?_foldl_offer]
  rfl

/-- No id occurs with two signatures. -/
def Unambiguous (pairs : List (ReplicaID × Signature)) : Prop :=
  ∀ rid sig other, (rid, sig) ∈ pairs → (rid, other) ∈ pairs → sig = other

theorem Unambiguous.lookup_eq_some_iff
    {pairs : List (ReplicaID × Signature)} (unambiguous : Unambiguous pairs)
    {rid : ReplicaID} {sig : Signature} :
    pairs.lookup rid = some sig ↔ (rid, sig) ∈ pairs := by
  constructor
  · intro found
    obtain ⟨before, after, split, -⟩ := List.lookup_eq_some_iff.mp found
    simp [split]
  · intro member
    cases found : pairs.lookup rid with
    | none =>
        have absent := List.lookup_eq_none_iff.mp found (rid, sig) member
        simp at absent
    | some other =>
        obtain ⟨before, after, split, -⟩ := List.lookup_eq_some_iff.mp found
        have otherMember : (rid, other) ∈ pairs := by simp [split]
        rw [unambiguous rid sig other member otherMember]

/-- The order of the accepted calls does not matter. -/
theorem collect_congr (objHash : Hash) {first second : List Contribution}
    (same : ∀ pair, pair ∈ (new objHash).accepted first ↔
      pair ∈ (new objHash).accepted second)
    (unambiguous : Unambiguous ((new objHash).accepted first)) :
    collect objHash first = collect objHash second := by
  have unambiguous' : Unambiguous ((new objHash).accepted second) := by
    intro rid sig other member otherMember
    exact unambiguous rid sig other ((same _).mpr member)
      ((same _).mpr otherMember)
  have sameHash : (collect objHash first).objHash =
      (collect objHash second).objHash := by
    rw [collect, collect, objHash_foldl_offer, objHash_foldl_offer]
  refine QuorumCertificate.ext sameHash (OrderedMap.ext_find? ?_)
  intro rid
  apply Option.ext
  intro sig
  rw [find?_collect, find?_collect, unambiguous.lookup_eq_some_iff,
    unambiguous'.lookup_eq_some_iff, same]

theorem keys_collect_lt (objHash : Hash) (contributions : List Contribution) :
    ∀ rid ∈ (collect objHash contributions).sigs.keys, rid < maxReplicas := by
  apply keys_foldl_offer_lt
  intro rid member
  cases member

end QuorumCertificate

/-! ### Both directions of the encoding -/

namespace QuorumCertificate

/-- The bitmap and the signatures of a wire form name the entries, lowest id
first. -/
theorem zip_serialize {qc : QuorumCertificate}
    (small : ∀ rid ∈ qc.sigs.keys, rid < maxReplicas) :
    qc.serialize.bmp.members.zip qc.serialize.sigs = qc.sigs.entries := by
  have zipped := List.zip_unzip qc.sigs.entries
  rw [List.unzip_eq_map] at zipped
  rw [members_serialize small]
  exact zipped

/-- A wire form with as many signatures as signers is the wire form of its
certificate. -/
theorem serialize_ofWire {wire : QuorumCertificateWire}
    (matching : wire.bmp.members.length = wire.sigs.length) :
    (ofWire wire).serialize = wire := by
  have entries := entries_ofWire matching
  have sameBitmap : (ofWire wire).serialize.bmp = wire.bmp := by
    apply ReplicaIDBitMap.members_injective
    rw [members_serialize (keys_ofWire_lt wire), OrderedMap.keys, entries,
      List.map_fst_zip matching.le]
  have sameSigs : (ofWire wire).serialize.sigs = wire.sigs := by
    rw [serialize, entries, List.map_snd_zip matching.ge]
  have sameHash : (ofWire wire).serialize.justify = wire.justify := by
    rw [justify_serialize, objHash_ofWire]
  calc (ofWire wire).serialize
      = ⟨(ofWire wire).serialize.justify, (ofWire wire).serialize.bmp,
          (ofWire wire).serialize.sigs⟩ := rfl
    _ = ⟨wire.justify, wire.bmp, wire.sigs⟩ := by
        rw [sameHash, sameBitmap, sameSigs]
    _ = wire := rfl

end QuorumCertificate

/-- Certificates that were collected come back from their wire forms, wire forms
with as many signatures as signers from their certificates, and the wire form
depends on the accepted pairs only. -/
theorem certificate_encoding_roundTrip :
    (∀ objHash contributions,
      let qc := QuorumCertificate.collect objHash contributions
      QuorumCertificate.ofWire qc.serialize = qc ∧
        qc.serialize.bmp.members.zip qc.serialize.sigs = qc.sigs.entries ∧
        qc.sigs.keys.Pairwise (· < ·)) ∧
      (∀ wire : QuorumCertificateWire,
        wire.bmp.members.length = wire.sigs.length →
          (QuorumCertificate.ofWire wire).serialize = wire) ∧
      ∀ objHash first second,
        (∀ pair,
          pair ∈ (QuorumCertificate.new objHash).accepted first ↔
            pair ∈ (QuorumCertificate.new objHash).accepted second) →
          QuorumCertificate.Unambiguous
            ((QuorumCertificate.new objHash).accepted first) →
          (QuorumCertificate.collect objHash first).serialize =
            (QuorumCertificate.collect objHash second).serialize := by
  refine ⟨?_, ?_, ?_⟩
  · intro objHash contributions qc
    have small := QuorumCertificate.keys_collect_lt objHash contributions
    exact ⟨QuorumCertificate.ofWire_serialize small,
      QuorumCertificate.zip_serialize small,
      List.pairwise_map.mpr qc.sigs.sorted⟩
  · intro wire matching
    exact QuorumCertificate.serialize_ofWire matching
  · intro objHash first second same unambiguous
    rw [QuorumCertificate.collect_congr objHash same unambiguous]

end Encoding

/-! ### Three votes -/

namespace Symbolic

def votedHash : Hash := .leaf 7

def signedBy (voter : ReplicaID) : QuorumCertificate.Contribution :=
  (voter, PartialCertificate.sign votedHash (voter : Nat))

/-- The votes of three replicas, one of them twice, a vote with an id that is
too large and a vote on another hash. -/
def unorderedVotes : List QuorumCertificate.Contribution :=
  [signedBy 5, signedBy 40, signedBy 2, signedBy 5,
    (3, PartialCertificate.sign (.leaf 8) (3 : Nat)), signedBy 31]

def orderedVotes : List QuorumCertificate.Contribution :=
  [signedBy 2, signedBy 5, signedBy 31]

end Symbolic

open scoped Symbolic in
open Symbolic in
theorem certificate_encoding_unorderedVotes :
    (QuorumCertificate.collect votedHash unorderedVotes).serialize =
        (QuorumCertificate.collect votedHash orderedVotes).serialize ∧
      (QuorumCertificate.ofWire
        (QuorumCertificate.collect votedHash orderedVotes).serialize).serialize
          = (QuorumCertificate.collect votedHash orderedVotes).serialize := by
  obtain ⟨-, encoded, unordered⟩ := certificate_encoding_roundTrip
  constructor
  · apply unordered
    · have included : ∀ pair ∈ (QuorumCertificate.new votedHash).accepted
          unorderedVotes, pair ∈ (QuorumCertificate.new votedHash).accepted
            orderedVotes := by
        decide +kernel
      have includes : ∀ pair ∈ (QuorumCertificate.new votedHash).accepted
          orderedVotes, pair ∈ (QuorumCertificate.new votedHash).accepted
            unorderedVotes := by
        decide +kernel
      intro pair
      exact ⟨included pair, includes pair⟩
    · have distinct : ∀ pair ∈ (QuorumCertificate.new votedHash).accepted
          unorderedVotes, ∀ other ∈ (QuorumCertificate.new votedHash).accepted
            unorderedVotes, pair.1 = other.1 → pair.2 = other.2 := by
        decide +kernel
      intro rid sig other member otherMember
      exact distinct _ member _ otherMember rfl
  · apply encoded
    decide +kernel

end Hotstuff
