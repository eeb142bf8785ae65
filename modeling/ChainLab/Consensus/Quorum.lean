import ChainLab.Consensus.Certificates

/-! Quorums. The two formulas for a quorum agree, and two certificates that the same validators are asked to accept have more
than a third of the validators in common. -/

namespace ChainLab.Consensus

open ChainLab.Lib ChainLab.Types ChainLab.Crypto

/-- The list and the set of validators have one size. -/
def POA.Enrolled (p : POA) : Prop := p.validatorSet.card = p.validators.length

theorem POA.Enrolled.enroll {p : POA} (h : p.Enrolled) (validator : String) : (p.enroll validator).Enrolled := by
  unfold POA.enroll
  split
  · exact h
  split
  · exact h
  case isFalse hnew =>
    change (insert validator p.validatorSet).card = (p.validators ++ [validator]).length
    rw [Finset.card_insert_of_notMem hnew, h, List.length_append, List.length_singleton]

theorem POA.Enrolled.foldl (validators : List String) :
    ∀ {p : POA}, p.Enrolled → (validators.foldl POA.enroll p).Enrolled := by
  induction validators with
  | nil =>
    intro p hp
    exact hp
  | cons validator rest ih =>
    intro p hp
    rw [List.foldl_cons]
    apply ih
    exact hp.enroll validator

theorem enrolled_newPOA (validators : List String) : (newPOA validators).Enrolled := by
  unfold newPOA
  apply POA.Enrolled.foldl
  exact Finset.card_empty

/-- With a validator at all, a number of votes reaches the quorum size exactly if it passes the strict two-thirds test. -/
theorem finalityQuorumSize_le {n : Nat} (hn : 0 < n) (k : Nat) : finalityQuorumSize n ≤ k ↔ n * 2 < k * 3 := by
  unfold finalityQuorumSize
  rw [if_neg (by omega)]
  omega

/-- Two sets of more than two thirds have more than a third in common. -/
theorem lt_card_inter {α : Type} [DecidableEq α] {all left right : Finset α} (hleft : left ⊆ all) (hright : right ⊆ all)
    (hmost : all.card * 2 < left.card * 3) (hmost' : all.card * 2 < right.card * 3) :
    all.card < (left ∩ right).card * 3 := by
  have hunion := Finset.card_le_card (Finset.union_subset hleft hright)
  have hsum := Finset.card_union_add_card_inter left right
  omega

section Certificates

variable [Primitives] {validators : List String} {block block' : Block} {certificate certificate' : FinalityCertificate}

/-- If the validators accept certificates of two blocks, then more than a third of them have signed votes for both; and what
is accepted has a quorum by either formula. -/
theorem certificates_overlap
    (h : (newPOA validators).validateFinalityCertificate block certificate = .ok ())
    (h' : (newPOA validators).validateFinalityCertificate block' certificate' = .ok ()) :
    (∀ k : Nat, (newPOA validators).finalityQuorum ≤ k ↔ (newPOA validators).validators.length * 2 < k * 3) ∧
      (newPOA validators).finalityQuorum ≤ (signers certificate).card ∧
      ∃ both : Finset String, both ⊆ (newPOA validators).validatorSet ∧
        (newPOA validators).validators.length < both.card * 3 ∧
        ∀ validator ∈ both, (∃ vote ∈ certificate.signatures.items, vote.validator = validator ∧
            verifyFinalityVote block vote = true) ∧
          ∃ vote ∈ certificate'.signatures.items, vote.validator = validator ∧ verifyFinalityVote block' vote = true := by
  have haccepted := validateFinalityCertificate_ok.mp h
  have haccepted' := validateFinalityCertificate_ok.mp h'
  have hmost := haccepted.quorum
  have hmost' := haccepted'.quorum
  rw [← haccepted.card_signers] at hmost
  rw [← haccepted'.card_signers] at hmost'
  have hsize := enrolled_newPOA validators
  have hsome : 0 < (newPOA validators).validators.length := by
    rw [← hsize, Finset.card_pos]
    exact haccepted.signers_nonempty.mono haccepted.signers_subset
  have hquorum := finalityQuorumSize_le hsome
  refine ⟨hquorum, (hquorum _).mpr hmost, signers certificate ∩ signers certificate',
    Finset.inter_subset_left.trans haccepted.signers_subset, ?_, fun validator hmem => ?_⟩
  · rw [← hsize] at hmost hmost' ⊢
    exact lt_card_inter haccepted.signers_subset haccepted'.signers_subset hmost hmost'
  · obtain ⟨hleft, hright⟩ := Finset.mem_inter.mp hmem
    obtain ⟨vote, hvote, hby⟩ := List.mem_map.mp (List.mem_toFinset.mp hleft)
    obtain ⟨vote', hvote', hby'⟩ := List.mem_map.mp (List.mem_toFinset.mp hright)
    exact ⟨⟨vote, hvote, hby, (haccepted.endorsed vote hvote).verified⟩,
      vote', hvote', hby', (haccepted'.endorsed vote' hvote').verified⟩

end Certificates

section Committee

attribute [local instance] checksumPrimitives

/-- Three of four validators certify one block and three of them another one of its height. -/
theorem certificates_overlap_committee : (committeeBlock 5).hash ≠ (committeeBlock 6).hash ∧
    (newPOA committee).finalityQuorum = 3 ∧ ∃ both : Finset String, 4 < both.card * 3 ∧ ∀ validator ∈ both,
      (∃ vote ∈ (committeeCertificate 5 [1, 2, 3]).signatures.items, vote.validator = validator ∧
        verifyFinalityVote (committeeBlock 5) vote = true) ∧
      ∃ vote ∈ (committeeCertificate 6 [2, 3, 4]).signatures.items, vote.validator = validator ∧
        verifyFinalityVote (committeeBlock 6) vote = true := by
  obtain ⟨hleft, -, hright, hdistinct⟩ := committee_accepts
  obtain ⟨-, -, both, -, hmost, hsigned⟩ := certificates_overlap hleft hright
  exact ⟨hdistinct, by decide +kernel, both, hmost, hsigned⟩

end Committee

end ChainLab.Consensus
