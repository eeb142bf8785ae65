import ChainLab.Core.Outcome
import ChainLab.Lib.Bytes
import ChainLab.State.Edits

/-! Executing a transaction writes the store only by the operations of `Edit`: every address a message
names passed the schema, and the storage it writes belongs to an account that exists by then. -/

namespace ChainLab.Core

open ChainLab.Lib ChainLab.Types ChainLab.Crypto ChainLab.State ChainLab.State.Store Relation

variable [Primitives] {change : LifecycleChange} {s s' : Store} {tx : Transaction} {context : ExecutionContext}
  {runtime : Runtime} {attributes : Fields} {event : Event} {blockHeight : UInt64}

/-! ### What the schema says about addresses -/

omit [Primitives] in
theorem requireCanonicalAddress_ok {field address : String} (h : requireCanonicalAddress field address = .ok ()) :
    IsCanonicalAddress address := by
  simp only [requireCanonicalAddress, bind_ok, mapError_ok, refuseIf_ok, not_not] at h
  obtain ⟨normalized, hnormalized, hsame⟩ := h
  rw [← hsame] at hnormalized
  exact hnormalized

theorem from_canonical (h : validateEnvelopeSchema tx = .ok ()) : IsCanonicalAddress tx.fromAddress := by
  simp only [validateEnvelopeSchema, bind_ok] at h
  obtain ⟨_, hfrom, -⟩ := h
  exact requireCanonicalAddress_ok hfrom

theorem signer_canonical (h : validateEnvelopeSchema tx = .ok ()) (hsigner : tx.signer ≠ "") :
    IsCanonicalAddress tx.signer := by
  simp only [validateEnvelopeSchema, bind_ok, checkWhen_ok] at h
  obtain ⟨_, -, _, hcheck, -⟩ := h
  exact requireCanonicalAddress_ok (hcheck hsigner)

theorem paymaster_canonical (h : validateEnvelopeSchema tx = .ok ()) (htype : tx.type ≠ .accountRecovery)
    (hpaymaster : trimSpace tx.paymaster ≠ "") : IsCanonicalAddress tx.paymaster := by
  simp only [validateEnvelopeSchema, bind_ok, checkWhen_ok, refuseIf_ok, exists_const] at h
  obtain ⟨_, -, _, -, _, -, _, -, _, -, -, -, -, -, _, -, -, _, hcheck, -⟩ := h
  exact requireCanonicalAddress_ok (hcheck ⟨htype, hpaymaster⟩)

/-- The payer of a transaction that may run: the paymaster and the recovery signer passed the schema. -/
theorem feePayer_canonical {store : Store} (hschema : validateEnvelopeSchema tx = .ok ())
    (hauth : validateTransactionAuthorization store tx blockHeight = .ok ()) :
    IsCanonicalAddress (transactionFeePayer tx) := by
  unfold transactionFeePayer
  by_cases htype : tx.type = .accountRecovery
  · rw [validateTransactionAuthorization, if_pos htype] at hauth
    simp only [validateAccountRecoveryAuthorization, bind_ok, refuseIf_ok, exists_const] at hauth
    obtain ⟨-, -, hpaymaster, -, hsigner, -⟩ := hauth
    rw [if_neg fun h => hpaymaster (.inl h)]
    split
    · have hne : tx.signer ≠ "" := fun hempty => hsigner (by rw [hempty]; rfl)
      have hcanonical := signer_canonical hschema hne
      rwa [hcanonical.lower]
    · have hcanonical := from_canonical hschema
      rwa [hcanonical.lower]
  · split
    · next hpaymaster =>
      have hcanonical := paymaster_canonical hschema htype hpaymaster
      rwa [hcanonical.lower]
    · rw [if_neg fun h => htype h.1]
      have hcanonical := from_canonical hschema
      rwa [hcanonical.lower]

/-! ### Account messages -/

/-- Writes to the storage of an account that is known. -/
theorem StorageWrites.acts {address : String} (h : StorageWrites address s s') (haddress : IsCanonicalAddress address) :
    Acts change (normalize address) s s' := by
  induction h with
  | refl => exact .refl _ _
  | tail _ hwrite ih =>
    refine ih.trans ?_
    cases hwrite with
    | set written => exact .setStorage haddress written
    | delete key => exact .edit (.deleteStorage haddress)
    | deletePrefix keyPrefix => exact .edit (.deleteStoragePrefix haddress)

theorem executeSetCode_acts (hfrom : IsCanonicalAddress tx.fromAddress)
    (h : executeSetCode s tx = .ok (s', event)) : Acts change (normalize tx.fromAddress) s s' := by
  simp only [executeSetCode, bind_ok, refuseIf_ok, exists_const] at h
  obtain ⟨-, h⟩ := h
  split at h
  · cases h
    exact .steps (clearDelegation_steps s hfrom)
  · simp only [bind_ok, refuseIf_ok, exists_const, pure_eq_ok, Except.ok.injEq, Prod.mk.injEq] at h
    obtain ⟨-, -, owner, -, -, written, hset, rfl, -⟩ := h
    exact ((Acts.steps (clearDelegation_steps s hfrom)).trans (.edit (.setDelegatedCodeID hfrom))).trans
      (.setStorage hfrom hset)

/-! ### Funds, stake and code -/

theorem executeTransfer_acts {events : List Event} (hfrom : IsCanonicalAddress tx.fromAddress)
    (hto : IsCanonicalAddress tx.toAddress) (h : executeTransfer s tx = .ok (s', events)) :
    Acts change (normalize tx.fromAddress) s s' := by
  simp only [executeTransfer, bind_ok, pure_eq_ok, Except.ok.injEq, Prod.mk.injEq] at h
  obtain ⟨moved, hmove, ⟨used, event⟩, huse, rfl, -⟩ := h
  exact (Acts.steps (transfer_steps hfrom hto hmove)).trans ((applySessionKeyUsage_writes huse).acts hfrom)

theorem executeStake_steps {events : List Event} (hfrom : IsCanonicalAddress tx.fromAddress)
    (h : executeStake s tx = .ok (s', events)) : Steps change s s' := by
  simp only [executeStake, bind_ok, refuseIf_ok, exists_const, pure_eq_ok, Except.ok.injEq,
    Prod.mk.injEq] at h
  obtain ⟨-, debited, hsub, staked, hstake, rfl, -⟩ := h
  exact (ReflTransGen.single (.subBalance hfrom hsub)).tail (.addStake hfrom hstake)

theorem executeUnstake_steps {events : List Event} (hfrom : IsCanonicalAddress tx.fromAddress)
    (h : executeUnstake s tx context = .ok (s', events)) : Steps change s s' := by
  simp only [executeUnstake, bind_ok, refuseIf_ok, exists_const, pure_eq_ok, Except.ok.injEq,
    Prod.mk.injEq] at h
  obtain ⟨-, -, unstaked, hunstake, credited, hadd, rfl, -⟩ := h
  exact (ReflTransGen.single (.subStake hfrom hunstake)).tail (.addBalance hfrom hadd)

theorem executeSlash_steps {events : List Event} (h : executeSlash s tx = .ok (s', events)) :
    Steps change s s' := by
  simp only [executeSlash, bind_ok, refuseIf_ok, exists_const, pure_eq_ok, Except.ok.injEq,
    Prod.mk.injEq] at h
  obtain ⟨evidence, -, _, hevidence, -, -, -, -, slashed, hslash, rfl, -⟩ := h
  have htarget : IsCanonicalAddress evidence.target := by
    simp only [validateSlashEvidence, validateSlashEvidenceShape, bind_ok, refuseIf_ok, not_not] at hevidence
    obtain ⟨_, ⟨_, htarget, -⟩, -⟩ := hevidence
    exact htarget
  exact (ReflTransGen.single (.subStake htarget hslash)).tail .setParam

/-- What a runtime admission does to the lifecycle: one identity of a new account, scheduled for the
start of an epoch at least two blocks ahead. -/
def Admits (context : ExecutionContext) : LifecycleChange := fun previous next =>
  ∃ lifecycle identity, previous = some lifecycle ∧
    next = { lifecycle with validators := lifecycle.validators.insert identity.consensusAddress identity } ∧
    identityByAccount lifecycle identity.account = none ∧
    context.blockHeight ≤ maxInt64.toUInt64 ∧ context.blockHeight ≠ 0 ∧ 2 ≤ context.validatorEpochLength ∧
    context.blockHeight.toInt64 + 2 ≤ identity.activeHeight ∧
    (identity.activeHeight - 1) % context.validatorEpochLength = 0 ∧
    identity.inactiveHeight = 0 ∧ identity.unbondingHeight = 0

theorem executeRuntimeValidatorAdmission_steps (h : executeRuntimeValidatorAdmission s tx context = .ok (s', event)) :
    Steps (Admits context) s s' := by
  simp only [executeRuntimeValidatorAdmission, bind_ok, refuseIf_ok, require_ok, exists_const, pure_eq_ok,
    Except.ok.injEq, Prod.mk.injEq] at h
  obtain ⟨-, hcontext, certificate, -, -, _, -, hnew, hschedule, _, -, -, lifecycle, hlifecycle, _, -, written,
    hset, rfl, -⟩ := h
  simp only [not_or, not_not, UInt64.not_lt, Int64.not_lt, gt_iff_lt] at hcontext hnew hschedule
  refine .single (.setValidatorLifecycle ⟨lifecycle, certificate.identity, hlifecycle, rfl, ?_, ?_⟩ hset)
  · simpa [validatorIdentityByAccount, hlifecycle] using hnew
  · exact ⟨hcontext.2.1, hcontext.1, hcontext.2.2.1, hschedule⟩

/-- The record that an upload stores passes the checks a snapshot makes. -/
theorem uploaded_code_valid {bytecode : List UInt8} (hfrom : IsCanonicalAddress tx.fromAddress)
    (h : parseWASMUploadPayload tx.payload = .ok bytecode) :
    validateSnapshotContractCode {
      codeID := wasmCodeID bytecode, runtime := "wasm", meteringVersion := wasmMeteringVersion
      creator := toLower tx.fromAddress, bytecode := String.ofList ('0' :: 'x' :: hexEncode bytecode) } = .ok () := by
  simp only [parseWASMUploadPayload, bind_ok, refuseIf_ok, require_ok, exists_const, pure_eq_ok,
    Except.ok.injEq] at h
  obtain ⟨-, raw, -, -, -, hsize, decoded, hdecode, hnonempty, rfl⟩ := h
  have hplain : ∀ c ∈ (String.ofList ('0' :: 'x' :: hexEncode decoded)).toList, PlainRune c := by
    rw [String.toList_ofList, List.forall_mem_cons, List.forall_mem_cons]
    exact ⟨by decide, by decide, hexEncode_plain decoded⟩
  have hascii : ∀ c ∈ '0' :: 'x' :: hexEncode decoded, c.toNat < 128 := by
    rw [List.forall_mem_cons, List.forall_mem_cons]
    exact ⟨by decide, by decide, hexEncode_ascii decoded⟩
  have hlength : len (String.ofList ('0' :: 'x' :: hexEncode decoded)) = 2 * decoded.length + 2 := by
    rw [← length_utf8Bytes, length_utf8Bytes_of_ascii hascii, List.length_cons, List.length_cons, length_hexEncode]
  have hbound : 2 * decoded.length ≤ Contracts.maxWASMModuleBytes * 2 := by
    rw [← hexDecode_length hdecode, runes_eq]
    exact (length_le_len _).trans (not_lt.mp hsize)
  have hpos : decoded.length ≠ 0 := fun hzero => hnonempty (List.length_eq_zero_iff.mp hzero)
  have hcreator : toLower tx.fromAddress = tx.fromAddress := by
    rw [← hfrom.lower, toLower_toLower]
  simp only [validateSnapshotContractCode, validateCanonicalAddressValue, bind_ok, refuseIf_ok, require_ok,
    exists_const, ne_eq, not_true_eq_false, not_false_eq_true, true_and, not_not, hcreator, hfrom, not_or,
    trimSpace_of_plain hplain, toLower_of_plain hplain, hlength]
  refine ⟨⟨?_, by simp [hasPrefix]⟩, ⟨by omega, by omega, ?_⟩, decoded, ?_, hpos, rfl⟩
  · exact fun hempty => by simpa using congrArg String.toList hempty
  · have hmax : Contracts.maxWASMModuleBytes = Types.maxWASMModuleBytes := rfl
    omega
  · rw [runes_eq, String.toList_ofList]
    exact hexDecode_hexEncode decoded

theorem executeUpload_steps {codeID : String} {events : List Event} (hfrom : IsCanonicalAddress tx.fromAddress)
    (h : executeUpload runtime s tx = .ok (s', codeID, events)) : Steps change s s' := by
  simp only [executeUpload, bind_ok, pure_eq_ok, Except.ok.injEq, Prod.mk.injEq] at h
  obtain ⟨bytecode, hparse, _, -, rfl, -⟩ := h
  exact .single (.setContractCode (uploaded_code_valid hfrom hparse))

/-! ### Contracts -/

/-- A runtime that writes by `Edit`: calls under a canonical address, deployments of a trimmed code id
under the address they report. -/
structure Runtime.Writes (runtime : Runtime) (change : LifecycleChange) : Prop where
  deploy : ∀ {store creator codeID seed payload gasLimit gasUsed store' address events},
    runtime.deployMeteredInTransaction store creator codeID seed payload gasLimit =
      (gasUsed, .ok (store', address, events)) → trimSpace codeID = codeID →
    (address ≠ "" → IsCanonicalAddress address) → Steps change store store'
  call : ∀ {store address caller method payload gasLimit gasUsed store' events},
    runtime.callMeteredInTransaction store address caller method payload gasLimit =
      (gasUsed, .ok (store', events)) → IsCanonicalAddress address → Steps change store store'

theorem executeDeploy_steps {gasUsed : UInt64} {address : String} {events : List Event}
    (hr : runtime.Writes change) (hcode : validateDeployCodeID (GoMap.get tx.payload "code_id") = .ok ())
    (haddress : address ≠ "" → IsCanonicalAddress address)
    (h : (executeDeploy runtime s tx gasUsed).2 = .ok (s', address, events)) : Steps change s s' := by
  simp only [validateDeployCodeID, bind_ok, refuseIf_ok, exists_const, not_not] at hcode
  exact hr.deploy (Prod.ext rfl (chargeGas_ok h)) hcode.2.1.symm haddress

theorem executeCall_acts {gasUsed : UInt64} {events : List Event} (hr : runtime.Writes change)
    (hfrom : IsCanonicalAddress tx.fromAddress) (hto : IsCanonicalAddress tx.toAddress)
    (h : (executeCall runtime s tx gasUsed).2 = .ok (s', events)) : Acts change (normalize tx.fromAddress) s s' := by
  simp only [executeCall, bind_ok, pure_eq_ok, Except.ok.injEq, Prod.mk.injEq] at h
  obtain ⟨⟨called, new⟩, hcall, ⟨used, event⟩, huse, rfl, -⟩ := h
  exact (Acts.steps (hr.call (Prod.ext rfl (chargeGas_ok hcall)) hto)).trans
    ((applySessionKeyUsage_writes huse).acts hfrom)

omit [Primitives] in
theorem batchTarget_canonical {entry : BatchOperation × Nat} (h : validateBatchOperation entry = .ok ()) :
    IsCanonicalAddress entry.1.toAddress := by
  unfold validateBatchOperation at h
  simp only at h
  split at h
  · simp only [bind_ok] at h
    obtain ⟨_, hto, -⟩ := h
    exact requireCanonicalAddress_ok hto
  · simp only [bind_ok] at h
    obtain ⟨_, -, _, hto, -⟩ := h
    exact requireCanonicalAddress_ok hto
  · cases h

theorem executeBatchOperation_steps {operation : BatchOperation} {index : Nat} {gasLimit : UInt64}
    {events : List Event} (hr : runtime.Writes change) (hfrom : IsCanonicalAddress tx.fromAddress)
    (hto : IsCanonicalAddress operation.toAddress)
    (h : (executeBatchOperation runtime s tx operation index gasLimit).2 = .ok (s', events)) :
    Steps change s s' := by
  unfold executeBatchOperation at h
  split at h
  · simp only [bind_ok, pure_eq_ok, Except.ok.injEq, Prod.mk.injEq] at h
    obtain ⟨moved, hmove, rfl, -⟩ := h
    exact transfer_steps hfrom hto hmove
  · simp only [bind_ok, pure_eq_ok, Except.ok.injEq, Prod.mk.injEq] at h
    obtain ⟨⟨called, new⟩, hcall, rfl, -⟩ := h
    exact hr.call (Prod.ext rfl hcall) hto
  · exact absurd h (by simp)

theorem executeBatch_steps (hr : runtime.Writes change) (hfrom : IsCanonicalAddress tx.fromAddress)
    (operations : List (BatchOperation × Nat)) (hto : ∀ entry ∈ operations, IsCanonicalAddress entry.1.toAddress)
    (s : Store) (gasUsed : UInt64) (events : List Event) {events' : List Event}
    (h : (executeBatch runtime tx operations s gasUsed events).2 = .ok (s', events')) : Steps change s s' := by
  induction operations generalizing s gasUsed events with
  | nil =>
    cases h
    exact .refl
  | cons entry rest ih =>
    obtain ⟨store, gas, new, hran, h⟩ := continueBatch_ok h
    rw [List.forall_mem_cons] at hto
    exact (executeBatchOperation_steps hr hfrom hto.1 (chargeGas_ok hran)).trans (ih hto.2 _ _ _ h)

/-! ### Messages -/

/-- A message that succeeds is a sequence of writes. -/
theorem executeMessage_acts {gasUsed : UInt64} {receipt receipt' : Receipt} (hr : runtime.Writes (Admits context))
    (hschema : validateTransactionSchema tx context = .ok ()) (haddress : receipt'.contractAddress ≠ "" →
      IsCanonicalAddress receipt'.contractAddress)
    (h : (executeMessage runtime s tx context gasUsed receipt).2 = .ok (s', receipt')) :
    Acts (Admits context) (normalize tx.fromAddress) s s' := by
  simp only [validateTransactionSchema, bind_ok] at hschema
  obtain ⟨_, henvelope, hmessage⟩ := hschema
  have hfrom := from_canonical henvelope
  cases htype : tx.type with
  | transfer =>
    simp only [executeMessage, htype, bind_ok, pure_eq_ok, Except.ok.injEq, Prod.mk.injEq] at h
    obtain ⟨done, hrun, rfl, rfl⟩ := h
    simp only [validateMessageSchema, htype, bind_ok] at hmessage
    obtain ⟨_, hto, -⟩ := hmessage
    exact executeTransfer_acts hfrom (requireCanonicalAddress_ok hto) hrun
  | batch =>
    simp only [executeMessage, htype, bind_ok, pure_eq_ok, Except.ok.injEq, Prod.mk.injEq] at h
    obtain ⟨done, hrun, rfl, rfl⟩ := h
    simp only [validateMessageSchema, htype, bind_ok, refuseIf_ok, exists_const] at hmessage
    obtain ⟨-, -, -, hoperations⟩ := hmessage
    refine .steps (executeBatch_steps hr hfrom _ (fun entry hentry => ?_) _ _ _ hrun)
    exact batchTarget_canonical (forM_ok.mp hoperations entry hentry)
  | stake =>
    simp only [executeMessage, htype, bind_ok, pure_eq_ok, Except.ok.injEq, Prod.mk.injEq] at h
    obtain ⟨done, hrun, rfl, rfl⟩ := h
    exact .steps (executeStake_steps hfrom hrun)
  | unstake =>
    simp only [executeMessage, htype, bind_ok, pure_eq_ok, Except.ok.injEq, Prod.mk.injEq] at h
    obtain ⟨done, hrun, rfl, rfl⟩ := h
    exact .steps (executeUnstake_steps hfrom hrun)
  | validatorSlash =>
    simp only [executeMessage, htype, bind_ok, pure_eq_ok, Except.ok.injEq, Prod.mk.injEq] at h
    obtain ⟨done, hrun, rfl, rfl⟩ := h
    exact .steps (executeSlash_steps hrun)
  | validatorJoin =>
    simp only [executeMessage, htype, bind_ok, pure_eq_ok, Except.ok.injEq, Prod.mk.injEq] at h
    obtain ⟨done, hrun, rfl, rfl⟩ := h
    exact .steps (executeRuntimeValidatorAdmission_steps hrun)
  | setCode =>
    simp only [executeMessage, htype, bind_ok, pure_eq_ok, Except.ok.injEq, Prod.mk.injEq] at h
    obtain ⟨done, hrun, rfl, rfl⟩ := h
    exact executeSetCode_acts hfrom hrun
  | sessionKey =>
    simp only [executeMessage, htype, bind_ok, pure_eq_ok, Except.ok.injEq, Prod.mk.injEq] at h
    obtain ⟨done, hrun, rfl, rfl⟩ := h
    exact (executeSessionKey_writes hrun).acts hfrom
  | accountRecovery =>
    simp only [executeMessage, htype, bind_ok, pure_eq_ok, Except.ok.injEq, Prod.mk.injEq] at h
    obtain ⟨done, hrun, rfl, rfl⟩ := h
    exact (executeAccountRecovery_writes hrun).acts hfrom
  | wasmUpload =>
    simp only [executeMessage, htype, bind_ok, pure_eq_ok, Except.ok.injEq, Prod.mk.injEq] at h
    obtain ⟨done, hrun, rfl, rfl⟩ := h
    exact .steps (executeUpload_steps hfrom hrun)
  | deploy =>
    simp only [executeMessage, htype, bind_ok, pure_eq_ok, Except.ok.injEq, Prod.mk.injEq] at h
    obtain ⟨done, hrun, rfl, rfl⟩ := h
    simp only [validateMessageSchema, htype, bind_ok, refuseIf_ok, exists_const] at hmessage
    obtain ⟨_, -, -, hcode⟩ := hmessage
    exact .steps (executeDeploy_steps hr hcode haddress hrun)
  | call =>
    simp only [executeMessage, htype, bind_ok, pure_eq_ok, Except.ok.injEq, Prod.mk.injEq] at h
    obtain ⟨done, hrun, rfl, rfl⟩ := h
    simp only [validateMessageSchema, htype, bind_ok] at hmessage
    obtain ⟨_, -, _, hto, -⟩ := hmessage
    exact executeCall_acts hr hfrom (requireCanonicalAddress_ok hto) hrun
  | proposalSubmit | vote | proposalExecute | validatorLeave | unknown =>
    simp [executeMessage, htype] at h

/-! ### Transactions -/

namespace Executor

variable {e : Executor} {store after : Store}

theorem settleFeeEscrow_steps {payer : String} {maximumFee : UInt64} {fee : FeeBreakdown}
    (hcollector : e.feeCollector ≠ "" → IsCanonicalAddress e.feeCollector) (hpayer : IsCanonicalAddress payer)
    (h : settleFeeEscrow e.feeCollector store payer maximumFee fee = .ok after) : Steps change store after := by
  simp only [settleFeeEscrow, bind_ok, refuseIf_ok, exists_const, mapError_ok] at h
  obtain ⟨-, refunded, hrefund, h⟩ := h
  have hfirst : Steps change store refunded := .single (.addBalance hpayer hrefund)
  split at h
  · cases h
    exact hfirst
  · next hsome =>
    rw [not_or] at hsome
    rw [mapError_ok] at h
    exact hfirst.tail (.addBalance (hcollector hsome.1) h)

/-- The checks before execution lead to a store by writes; it knows the sender. -/
theorem prepare_steps {a : Ante} (h : e.prepare store tx context = .ok a) :
    validateTransactionSchema tx context = .ok () ∧ IsCanonicalAddress a.feePayer ∧
      Steps change store a.ante ∧ normalize tx.fromAddress ∈ a.ante.accounts := by
  have hknown := (mem_accounts_prepare h (normalize tx.fromAddress)).mpr (.inr (.inl rfl))
  simp only [prepare, bind_ok, refuseIf_ok, exists_const, mapError_ok, pure_eq_ok, Except.ok.injEq] at h
  obtain ⟨-, gas, hgas, -, _, hauth, _, -, -, _, -, raised, hraise, fee, -, ante, hescrow, rfl⟩ := h
  simp only [intrinsicGasForTransaction, bind_ok] at hgas
  obtain ⟨_, hschema, -⟩ := hgas
  have henvelope : validateEnvelopeSchema tx = .ok () := by
    simp only [validateTransactionSchema, bind_ok] at hschema
    obtain ⟨_, henvelope, -⟩ := hschema
    exact henvelope
  have hpayer := feePayer_canonical henvelope hauth
  exact ⟨hschema, hpayer, (ReflTransGen.single (.incrementNonce (from_canonical henvelope) hraise)).tail
    (.subBalance hpayer hescrow), hknown⟩

/-- The receipt of a finished message names a canonical contract address, if any. -/
theorem finish_steps {feePayer : String} {maximumFee gasUsed : UInt64} {receipt receipt' : Receipt}
    (hcollector : e.feeCollector ≠ "" → IsCanonicalAddress e.feeCollector) (hpayer : IsCanonicalAddress feePayer)
    (h : e.finish tx context feePayer maximumFee gasUsed store receipt = .ok (after, receipt')) :
    (receipt.contractAddress ≠ "" → IsCanonicalAddress receipt.contractAddress) ∧ Steps change store after := by
  obtain ⟨fee, hreports, hsettle, -, -, hsame⟩ := finish_reports h
  refine ⟨fun hne => ?_, settleFeeEscrow_steps hcollector hpayer hsettle⟩
  have hreceipt := hreports.schema
  simp only [validateReceiptSchema, bind_ok, refuseIf_ok, exists_const, hsame] at hreceipt
  obtain ⟨_, -, -, -, -, -, -, haddress, -⟩ := hreceipt
  by_contra hnot
  exact haddress ⟨hne, hnot⟩

/-- Whatever its outcome, executing a transaction writes by `Edit`. -/
theorem executeWithContext_steps (e : Executor) (hr : e.runtime.Writes (Admits context))
    (hcollector : e.feeCollector ≠ "" → IsCanonicalAddress e.feeCollector) (store : Store) (tx : Transaction) :
    Steps (Admits context) store (e.executeWithContext store tx context).1 := by
  obtain ⟨err, h⟩ | ⟨a, err, after, receipt, hprep, hfail, h⟩ |
    ⟨a, working, draft, after, receipt, hprep, hran, hfinish, h⟩ := executeWithContext_cases e store tx context
  · rw [h]
  · rw [h]
    obtain ⟨-, hpayer, hante, -⟩ := prepare_steps hprep
    obtain ⟨fee, -, hsettle, -⟩ := commitFailedExecution_reports hfail
    exact hante.trans (settleFeeEscrow_steps hcollector hpayer hsettle)
  · rw [h]
    obtain ⟨hschema, hpayer, hante, hknown⟩ := prepare_steps hprep
    obtain ⟨haddress, hsettled⟩ := finish_steps hcollector hpayer hfinish
    exact (hante.trans (executeMessage_acts hr hschema haddress hran hknown)).trans hsettled

end Executor

end ChainLab.Core
