import ChainLab.Consensus.Poa
import ChainLab.Crypto.Checksum

/-! What an accepted finality certificate is, apart from the loop that checks it. -/

namespace ChainLab.Consensus

open ChainLab.Lib ChainLab.Types ChainLab.Crypto

theorem IsCanonicalAddress.ne_empty {address : String} (h : IsCanonicalAddress address) : address ≠ "" := by
  rintro rfl
  exact absurd h (by decide)

theorem empty_lt_of_ne_empty {s : String} (h : s ≠ "") : "" < s := by
  rw [String.lt_iff_toList_lt]
  cases hs : s.toList with
  | nil => exact absurd (String.toList_inj.mp hs) h
  | cons c rest => exact List.nil_lt_cons c rest

/-- The validators that signed, in the order of the certificate. -/
def signerList (certificate : FinalityCertificate) : List String :=
  certificate.signatures.items.map FinalitySignature.validator

def signers (certificate : FinalityCertificate) : Finset String := (signerList certificate).toFinset

/-! ### The scan -/

/-- The scan after a vote that passes. -/
def CertificateScan.record (scan : CertificateScan) (vote : FinalitySignature) : CertificateScan where
  seen := insert vote.validator scan.seen
  previousValidator := vote.validator

/-- The last validator bounds those before it, so that the duplicate check never fires on its own. -/
def CertificateScan.Bounded (scan : CertificateScan) : Prop :=
  ∀ validator ∈ scan.seen, validator ≤ scan.previousValidator

theorem CertificateScan.Bounded.record {scan : CertificateScan} (h : scan.Bounded) {vote : FinalitySignature}
    (hlt : scan.previousValidator < vote.validator) : (scan.record vote).Bounded := by
  intro validator hmem
  rcases Finset.mem_insert.mp hmem with rfl | hmem
  · exact le_rfl
  · exact (h validator hmem).trans hlt.le

theorem CertificateScan.Bounded.notMem {scan : CertificateScan} (h : scan.Bounded) {validator : String}
    (hlt : scan.previousValidator < validator) : validator ∉ scan.seen :=
  fun hmem => absurd (h validator hmem) (not_le.mpr hlt)

theorem seen_foldl_record (votes : List FinalitySignature) (scan : CertificateScan) :
    (votes.foldl CertificateScan.record scan).seen =
      (votes.map FinalitySignature.validator).toFinset ∪ scan.seen := by
  induction votes generalizing scan with
  | nil => simp
  | cons vote rest ih =>
    rw [List.foldl_cons, ih, List.map_cons, List.toFinset_cons, CertificateScan.record, Finset.union_insert,
      Finset.insert_union]

/-! ### Acceptance -/

section Acceptance

variable [Primitives] {p : POA} {block : Block} {certificate : FinalityCertificate}

/-- A vote of a validator for the block. -/
structure Endorses (p : POA) (block : Block) (vote : FinalitySignature) : Prop where
  member : vote.validator ∈ p.validatorSet
  verified : verifyFinalityVote block vote = true

/-- An accepted certificate: endorsements of its block, by more than two thirds of the validators, in
increasing order. -/
structure Accepted (p : POA) (block : Block) (certificate : FinalityCertificate) : Prop where
  chainID : certificate.chainID = block.header.chainID
  height : certificate.height = block.header.height
  blockHash : certificate.blockHash = block.hash
  endorsed : ∀ vote ∈ certificate.signatures.items, Endorses p block vote
  increasing : (signerList certificate).Pairwise (· < ·)
  quorum : p.validators.length * 2 < (signerList certificate).length * 3

theorem Accepted.card_signers (h : Accepted p block certificate) :
    (signers certificate).card = (signerList certificate).length :=
  List.toFinset_card_of_nodup h.increasing.nodup

theorem Accepted.signers_subset (h : Accepted p block certificate) : signers certificate ⊆ p.validatorSet := by
  intro validator hmem
  obtain ⟨vote, hvote, rfl⟩ := List.mem_map.mp (List.mem_toFinset.mp hmem)
  exact (h.endorsed vote hvote).member

theorem Accepted.signers_nonempty (h : Accepted p block certificate) : (signers certificate).Nonempty := by
  have hquorum := h.quorum
  rw [← Finset.card_pos, h.card_signers]
  omega

theorem verifyFinalityVote_iff {vote : FinalitySignature} : verifyFinalityVote block vote = true ↔
    vote.chainID = block.header.chainID ∧ vote.height = block.header.height ∧ vote.blockHash = block.hash ∧
    (validateCanonicalHash "finality vote block hash" vote.blockHash).isOk = true ∧
    IsCanonicalAddress vote.validator ∧
    (validateCanonicalSignature "finality signature" vote.signature).isOk = true ∧
    verify vote.validator (voteSigningBytes block) vote.signature = true := by
  simp only [verifyFinalityVote, Bool.and_eq_true, decide_eq_true_eq, and_assoc]

/-- A round passes exactly for an endorsement by a later validator. -/
theorem scanSignature_ok (hchain : certificate.chainID = block.header.chainID)
    (hheight : certificate.height = block.header.height) (hhash : certificate.blockHash = block.hash)
    {scan next : CertificateScan} (hscan : scan.Bounded) {vote : FinalitySignature} :
    p.scanSignature block certificate scan vote = .ok next ↔
      Endorses p block vote ∧ scan.previousValidator < vote.validator ∧ next = scan.record vote := by
  simp only [POA.scanSignature, bind_ok, refuseIf_ok, exists_const, pure_eq_ok, Except.ok.injEq, not_or, not_not,
    not_and, not_le, Bool.not_eq_true', Bool.not_eq_false]
  constructor
  · rintro ⟨_, hcanonical, hmember, _, hsorted, hverified, rfl⟩
    refine ⟨⟨hmember, hverified⟩, ?_, rfl⟩
    by_cases hfirst : scan.previousValidator = ""
    · rw [hfirst]
      exact empty_lt_of_ne_empty (IsCanonicalAddress.ne_empty hcanonical)
    · exact hsorted hfirst
  · rintro ⟨hvote, hlt, rfl⟩
    obtain ⟨hvchain, hvheight, hvhash, _, hcanonical, _⟩ := verifyFinalityVote_iff.mp hvote.verified
    exact ⟨⟨hvchain.trans hchain.symm, hvheight.trans hheight.symm, hvhash.trans hhash.symm⟩, hcanonical,
      hvote.member, hscan.notMem hlt, fun _ => hlt, hvote.verified, rfl⟩

theorem scan_ok (hchain : certificate.chainID = block.header.chainID)
    (hheight : certificate.height = block.header.height) (hhash : certificate.blockHash = block.hash)
    (votes : List FinalitySignature) {scan final : CertificateScan} (hscan : scan.Bounded) :
    votes.foldlM (p.scanSignature block certificate) scan = .ok final ↔
      (∀ vote ∈ votes, Endorses p block vote) ∧
      (scan.previousValidator :: votes.map FinalitySignature.validator).IsChain (· < ·) ∧
      final = votes.foldl CertificateScan.record scan := by
  induction votes generalizing scan with
  | nil =>
    rw [List.foldlM_nil, pure_eq_ok, Except.ok.injEq, List.map_nil, List.foldl_nil]
    exact ⟨fun h => ⟨fun _ hmem => (nomatch hmem), .singleton _, h.symm⟩, fun h => h.2.2.symm⟩
  | cons vote rest ih =>
    rw [List.foldlM_cons, bind_ok, List.map_cons, List.isChain_cons_cons, List.forall_mem_cons, List.foldl_cons]
    constructor
    · rintro ⟨next, hnext, hrest⟩
      obtain ⟨hvote, hlt, rfl⟩ := (scanSignature_ok hchain hheight hhash hscan).mp hnext
      obtain ⟨hall, hincreasing, hfinal⟩ := (ih (hscan.record hlt)).mp hrest
      exact ⟨⟨hvote, hall⟩, ⟨hlt, hincreasing⟩, hfinal⟩
    · rintro ⟨⟨hvote, hall⟩, ⟨hlt, hincreasing⟩, hfinal⟩
      exact ⟨scan.record vote, (scanSignature_ok hchain hheight hhash hscan).mpr ⟨hvote, hlt, rfl⟩,
        (ih (hscan.record hlt)).mpr ⟨hall, hincreasing, hfinal⟩⟩

/-- `validateFinalityCertificate` accepts exactly the accepted certificates. -/
theorem validateFinalityCertificate_ok :
    p.validateFinalityCertificate block certificate = .ok () ↔ Accepted p block certificate := by
  have hbounded : ({} : CertificateScan).Bounded := fun validator hmem => (Finset.notMem_empty validator hmem).elim
  have hseen (final : CertificateScan)
      (hfinal : final = certificate.signatures.items.foldl CertificateScan.record {}) :
      final.seen = signers certificate := by
    rw [hfinal, seen_foldl_record, signers, signerList]
    exact Finset.union_empty _
  simp only [POA.validateFinalityCertificate, bind_ok, refuseIf_ok, exists_const, not_not, not_le]
  constructor
  · rintro ⟨hchain, hheight, hhash, final, hscan, hquorum⟩
    obtain ⟨hall, hincreasing, hfinal⟩ := (scan_ok hchain hheight hhash _ hbounded).mp hscan
    have hpairwise : (signerList certificate).Pairwise (· < ·) :=
      (List.pairwise_cons.mp (List.isChain_iff_pairwise.mp hincreasing)).2
    rw [hseen final hfinal, signers, List.toFinset_card_of_nodup hpairwise.nodup] at hquorum
    exact ⟨hchain, hheight, hhash, hall, hpairwise, hquorum⟩
  · intro h
    have hfirst : ∀ validator ∈ signerList certificate, "" < validator := by
      intro validator hmem
      obtain ⟨vote, hvote, rfl⟩ := List.mem_map.mp hmem
      obtain ⟨_, _, _, _, hcanonical, _⟩ := verifyFinalityVote_iff.mp (h.endorsed vote hvote).verified
      exact empty_lt_of_ne_empty (IsCanonicalAddress.ne_empty hcanonical)
    refine ⟨h.chainID, h.height, h.blockHash, _, (scan_ok h.chainID h.height h.blockHash _ hbounded).mpr
      ⟨h.endorsed, List.isChain_iff_pairwise.mpr (List.pairwise_cons.mpr ⟨hfirst, h.increasing⟩), rfl⟩, ?_⟩
    rw [hseen _ rfl, h.card_signers]
    exact h.quorum

end Acceptance

/-! ### A committee of four -/

section Committee

attribute [local instance] checksumPrimitives

def committee : List String := [1, 2, 3, 4].map keyAddress

/-- The first block of the committee, made at a time. -/
def committeeBlock (timeUnix : Int64) : Block := { header := { chainID := "lab", height := 1, timeUnix } }

/-- The votes of some of the four for it. -/
def committeeCertificate (timeUnix : Int64) (keys : List UInt8) : FinalityCertificate where
  chainID := "lab"
  height := 1
  blockHash := (committeeBlock timeUnix).hash
  signatures := some (keys.map fun key =>
    ⟨"lab", 1, (committeeBlock timeUnix).hash, keyAddress key, keySignature key⟩)

/-- Three of the four are a quorum, for either of two blocks. -/
theorem committee_accepts :
    (newPOA committee).validateFinalityCertificate (committeeBlock 5) (committeeCertificate 5 [1, 2, 3]) = .ok () ∧
    (newPOA committee).validateFinalityCertificate (committeeBlock 5) (committeeCertificate 5 [2, 3, 4]) = .ok () ∧
    (newPOA committee).validateFinalityCertificate (committeeBlock 6) (committeeCertificate 6 [2, 3, 4]) = .ok () ∧
    (committeeBlock 5).hash ≠ (committeeBlock 6).hash := by
  decide +kernel

end Committee

end ChainLab.Consensus
