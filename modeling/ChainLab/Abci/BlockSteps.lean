import ChainLab.Abci.Application
import ChainLab.Core.Steps
import ChainLab.State.Validators

/-! Deciding a block is a sequence of writes: those of its evidence, then those of its transactions. -/

namespace ChainLab.Abci

open ChainLab.Lib ChainLab.Types ChainLab.Crypto ChainLab.State ChainLab.Core Relation

/-- Any lifecycle may follow any other. -/
def anyLifecycle : LifecycleChange := fun _ _ => True

section Evidence

variable [Primitives] {store store' : Store} {lifecycle : ValidatorLifecycle} {policy : ValidatorPolicy}
  {height : Int64} {blockTime : Time} {records : List EvidenceRecord}

theorem compactValidatorOffencesV5_steps (h : compactValidatorOffencesV5 store height blockTime policy = .ok store') :
    Steps anyLifecycle store store' := by
  simp only [compactValidatorOffencesV5, bind_ok, refuseIf_ok, require_ok, exists_const] at h
  obtain ⟨-, lifecycle, -, _, -, h⟩ := h
  split at h
  · cases h
    exact .refl
  · exact .single (.setValidatorLifecycle trivial h)

/-- Evidence that is accepted names accounts of the lifecycle. -/
theorem validateEvidenceV2_canonical {input : List Misbehavior} {validators : List String}
    (hvalid : validateValidatorLifecycle lifecycle validators = .ok ())
    (h : validateEvidenceV2 input height blockTime lifecycle policy = .ok records) :
    ∀ record ∈ records, IsCanonicalAddress record.validator := by
  simp only [validateEvidenceV2, bind_ok, refuseIf_ok, exists_const, pure_eq_ok, Except.ok.injEq] at h
  obtain ⟨-, -, scanned, hscan, rfl⟩ := h
  have hscanned : ∀ record ∈ scanned, IsCanonicalAddress record.validator := by
    refine foldlM_keeps (fun records : List EvidenceRecord => ∀ record ∈ records, IsCanonicalAddress record.validator)
      _ (fun before entry after _ hbefore hround => ?_) (by simp) hscan
    simp only [scanEvidenceV2, bind_ok, refuseIf_ok, require_ok, exists_const, pure_eq_ok, Except.ok.injEq] at hround
    obtain ⟨_, -, identity, hidentity, -, -, _, -, -, -, -, -, rfl⟩ := hround
    intro record hmem
    rcases List.mem_append.mp hmem with hmem | hmem
    · exact hbefore record hmem
    · obtain rfl := List.mem_singleton.mp hmem
      exact identity_account_canonical (identity_valid hvalid hidentity).2
  intro record hmem
  exact hscanned record ((List.mem_insertionSort _).mp hmem)

theorem scanRecord_steps {recordEvidenceTime : Bool} {scan scan' : EvidenceScan} {record : EvidenceRecord}
    (hcanonical : IsCanonicalAddress record.validator)
    (h : scanRecord height policy recordEvidenceTime scan record = .ok scan') :
    Steps anyLifecycle scan.store scan'.store := by
  unfold scanRecord at h
  simp only at h
  split at h
  · cases h
    exact .refl
  · simp only [bind_ok, refuseIf_ok, exists_const, pure_eq_ok, Except.ok.injEq] at h
    obtain ⟨-, _, -, slashed, hslash, _, -, _, -, rfl⟩ := h
    unfold slashStake at hslash
    split at hslash
    · exact .single (.subStake hcanonical hslash)
    · cases hslash
      exact .refl

theorem applyEvidenceV2_steps {recordEvidenceTime : Bool} {updates : List ValidatorUpdate}
    (hcanonical : ∀ record ∈ records, IsCanonicalAddress record.validator)
    (h : applyEvidenceV2 store records height policy recordEvidenceTime = .ok (store', updates)) :
    Steps anyLifecycle store store' := by
  simp only [applyEvidenceV2, bind_ok, require_ok, pure_eq_ok, Except.ok.injEq, Prod.mk.injEq] at h
  obtain ⟨lifecycle, -, scan, hscan, _, -, written, hset, _, -, rfl, -⟩ := h
  have hstakes : Steps anyLifecycle store scan.store :=
    foldlM_keeps (fun scan : EvidenceScan => Steps anyLifecycle store scan.store) _
      (fun before record after hmem hbefore hround => hbefore.trans (scanRecord_steps (hcanonical record hmem) hround))
      .refl hscan
  exact hstakes.trans (.single (.setValidatorLifecycle trivial hset))

end Evidence

namespace Application

variable [Primitives] [DecodesJson Transaction] {runtime : Core.Runtime} {a : Application} {height : Int64}
  {proposer : String} {context : ExecutionContext} {result result' : ProposalExecution}

omit [DecodesJson Transaction] in
theorem proposalEvidenceState_steps {input : List Misbehavior} {blockTime : Time} {evidence : ProposalEvidenceState}
    (hvalid : ValidLifecycle a.committed.store)
    (h : a.proposalEvidenceState input height blockTime = .ok evidence) :
    Steps anyLifecycle a.committed.store evidence.store := by
  unfold proposalEvidenceState at h
  split at h
  · simp only [bind_ok, pure_eq_ok, Except.ok.injEq] at h
    obtain ⟨_, -, rfl⟩ := h
    exact .refl
  · simp only [bind_ok, require_ok, pure_eq_ok, Except.ok.injEq] at h
    obtain ⟨working, hworking, lifecycle, hlifecycle, _, -, records, hrecords, applied, happlied, rfl⟩ := h
    have hcompacted : Steps anyLifecycle a.committed.store working := by
      split at hworking
      · exact compactValidatorOffencesV5_steps hworking
      · cases hworking
        exact .refl
    have hworkingValid := (hcompacted.validators hvalid).2 lifecycle hlifecycle
    exact hcompacted.trans
      (applyEvidenceV2_steps (validateEvidenceV2_canonical hworkingValid hrecords) happlied)

theorem proposeTransaction_steps {raw : List UInt8} {index : Nat} (hr : runtime.Writes (Admits context))
    (hproposer : proposer ≠ "" → IsCanonicalAddress proposer)
    (h : a.proposeTransaction runtime proposer context result raw index = .ok result') :
    Steps anyLifecycle result.store result'.store := by
  simp only [proposeTransaction, bind_ok, mapError_ok] at h
  obtain ⟨tx, -, receipt, -, nextGas, -, h⟩ := h
  split at h
  · cases h
  · cases h
    have hsteps := Executor.executeWithContext_steps
      { chainID := a.genesis.chainID, feeCollector := proposer, runtime } hr hproposer result.store tx
    exact hsteps.mono fun _ _ _ => trivial

/-- The loop of a proposal is a sequence of writes, whichever transactions it keeps. -/
theorem executeProposalLoop_steps {maxBytes : Int64} {strict : Bool} (hr : runtime.Writes (Admits context))
    (hproposer : proposer ≠ "" → IsCanonicalAddress proposer) (entries : List (List UInt8 × Nat)) :
    ∀ {result : ProposalExecution},
      a.executeProposalLoop runtime proposer context maxBytes strict entries result = .ok result' →
      Steps anyLifecycle result.store result'.store := by
  induction entries with
  | nil =>
    intro result h
    cases h
    exact .refl
  | cons entry rest ih =>
    intro result h
    obtain ⟨raw, index⟩ := entry
    have hdone : (.ok result : Result ProposalExecution) = .ok result' → Steps anyLifecycle result.store result'.store := by
      rintro ⟨⟩
      exact .refl
    unfold executeProposalLoop at h
    split at h
    · exact hdone h
    split at h
    · exact hdone h
    split at h
    · split at h
      · cases h
      · exact hdone h
    cases hpropose : a.proposeTransaction runtime proposer context result raw index with
    | ok next =>
      rw [hpropose] at h
      exact (proposeTransaction_steps hr hproposer hpropose).trans (ih h)
    | error failure =>
      rw [hpropose] at h
      cases failure with
      | fatal err => cases h
      | invalid err =>
        unfold continueProposal at h
        simp only at h
        split at h
        · cases h
        · exact ih h

theorem executeProposalFromStore_steps {base : Store} {rawTxs : List (List UInt8)} {maxBytes : Int64} {strict : Bool}
    (hr : ∀ context, runtime.Writes (Admits context)) (hproposer : proposer ≠ "" → IsCanonicalAddress proposer)
    (h : a.executeProposalFromStore runtime base rawTxs height proposer maxBytes strict = .ok result') :
    Steps anyLifecycle base result'.store := by
  simp only [executeProposalFromStore, bind_ok, refuseIf_ok, exists_const] at h
  exact executeProposalLoop_steps (hr _) hproposer _ h.2

end Application

end ChainLab.Abci
