import ChainLab.Contracts.Gas
import ChainLab.Core.Escrow

/-! Receipts: the gas and the fees they report are within their bounds, and every receipt that is made passes the
receipt schema. -/

namespace ChainLab.Core

open ChainLab.Lib ChainLab.Types ChainLab.Crypto ChainLab.State ChainLab.State.Store

variable {s s' store : Store} {tx : Transaction} {context : ExecutionContext}

/-! ### The events of a message -/

theorem notMem_insert {attributes : Fields} {key : String} (value : String) (hkey : key ≠ "")
    (h : "" ∉ attributes) : "" ∉ attributes.insert key value := by
  rw [Finmap.mem_insert, not_or]
  exact ⟨fun hsame => hkey hsame.symm, h⟩

theorem tagBatchEvents_shaped {events : List Event} (index : Nat) (h : ∀ event ∈ events, event.Shaped) :
    ∀ event ∈ tagBatchEvents events index, event.Shaped := by
  intro tagged htagged
  obtain ⟨event, hevent, rfl⟩ := List.mem_map.mp htagged
  exact ⟨(h event hevent).1, notMem_insert _ (by decide) (h event hevent).2⟩

theorem applySessionKeyUsage_shaped {used : Option Event} (h : applySessionKeyUsage s tx = .ok (s', used)) :
    ∀ event ∈ used, event.Shaped := by
  unfold applySessionKeyUsage at h
  simp only at h
  split at h
  · cases h
    rintro event ⟨⟩
  · simp only [bind_ok] at h
    obtain ⟨policy, -, h⟩ := h
    split at h
    · cases h
      rintro event ⟨⟩
      exact Contracts.shaped_ofList (by decide) (by simp)
    · simp only [bind_ok, pure_eq_ok, Except.ok.injEq, Prod.mk.injEq] at h
      obtain ⟨spent, -, written, -, -, rfl⟩ := h
      rintro event ⟨⟩
      exact Contracts.shaped_ofList (by decide) (by simp)

theorem executeSetCode_shaped {event : Event} (h : executeSetCode s tx = .ok (s', event)) : event.Shaped := by
  have hbase : "" ∉ (GoMap.ofList [("account", toLower tx.fromAddress)] : Fields) :=
    Contracts.notMem_ofList (by simp)
  simp only [executeSetCode, bind_ok, refuseIf_ok, exists_const] at h
  obtain ⟨-, h⟩ := h
  split at h
  · cases h
    exact ⟨by simp, hbase⟩
  · simp only [bind_ok, refuseIf_ok, exists_const, pure_eq_ok, Except.ok.injEq, Prod.mk.injEq] at h
    obtain ⟨-, -, owner, -, -, written, -, -, rfl⟩ := h
    exact ⟨by simp, notMem_insert _ (by decide) (notMem_insert _ (by decide) hbase)⟩

theorem addSessionKey_shaped {key : String} {attributes : Fields} {event : Event} (hbase : "" ∉ attributes)
    (h : addSessionKey s tx key attributes = .ok (s', event)) : event.Shaped := by
  simp only [addSessionKey, bind_ok, refuseIf_ok, exists_const, pure_eq_ok, Except.ok.injEq, Prod.mk.injEq] at h
  obtain ⟨-, _, -, _, -, _, -, _, -, -, -, s1, -, s2, -, s3, -, s4, -, s5, -, s6, -, _, -, s7, -, -, rfl⟩ := h
  refine ⟨by simp, ?_⟩
  -- every field of the policy is named
  have hloop : ∀ (named : List (String × Option String)) (fields : Fields), (∀ entry ∈ named, entry.1 ≠ "") →
      "" ∉ fields → "" ∉ named.foldl (fun fields entry =>
        entry.2.elim fields fun text => fields.insert entry.1 text) fields := by
    intro named
    induction named with
    | nil => exact fun _ _ hfields => hfields
    | cons entry rest ih =>
      intro fields hnamed hfields
      obtain ⟨name, text⟩ := entry
      refine ih _ (fun e he => hnamed e (List.mem_cons_of_mem _ he)) ?_
      cases text with
      | none => exact hfields
      | some text => exact notMem_insert text (hnamed (name, some text) List.mem_cons_self) hfields
  exact hloop _ _ (by simp) hbase

theorem executeSessionKey_shaped {event : Event} (h : executeSessionKey s tx = .ok (s', event)) : event.Shaped := by
  have hbase : "" ∉ (GoMap.ofList [("account", toLower tx.fromAddress), ("key", GoMap.get tx.payload "key")] :
      Fields) := Contracts.notMem_ofList (by simp)
  simp only [executeSessionKey, bind_ok, refuseIf_ok, exists_const] at h
  obtain ⟨-, -, -, -, h⟩ := h
  split at h
  · exact addSessionKey_shaped hbase h
  · split at h
    · simp only [pure_eq_ok, Except.ok.injEq, Prod.mk.injEq] at h
      obtain ⟨-, rfl⟩ := h
      exact ⟨by simp, hbase⟩
    · exact absurd h (by simp)

section Recovery

variable {attributes : Fields} {event : Event} {signer : String} {blockHeight : UInt64}

theorem configureRecovery_shaped (hbase : "" ∉ attributes)
    (h : configureRecovery s tx attributes = .ok (s', event)) : event.Shaped := by
  simp only [configureRecovery, bind_ok, refuseIf_ok, exists_const, pure_eq_ok, Except.ok.injEq, Prod.mk.injEq] at h
  obtain ⟨_, -, _, -, _, -, -, _, -, s1, -, s2, -, s3, -, -, rfl⟩ := h
  exact ⟨by simp, notMem_insert _ (by decide) (notMem_insert _ (by decide) (notMem_insert _ (by decide) hbase))⟩

theorem approveRecovery_shaped (hbase : "" ∉ attributes)
    (h : approveRecovery s tx signer blockHeight attributes = .ok (s', event)) : event.Shaped := by
  simp only [approveRecovery, bind_ok] at h
  obtain ⟨newOwner, -, _, -, guardians, -, threshold, -, delay, -, round, -, h⟩ := h
  split at h
  · simp at h
  · simp only [bind_ok, pure_eq_ok, Except.ok.injEq, Prod.mk.injEq] at h
    obtain ⟨_, -, recorded, -, s2, -, outcome, -, -, rfl⟩ := h
    have hvote : "" ∉ (((attributes.insert "guardian" signer).insert "new_owner" newOwner).insert "approvals"
        (itoa (recoveryVotesForOwner recorded.1 newOwner).length)).insert "threshold" (formatUint threshold) :=
      notMem_insert _ (by decide) (notMem_insert _ (by decide) (notMem_insert _ (by decide)
        (notMem_insert _ (by decide) hbase)))
    refine ⟨by simp, notMem_insert _ (by decide) ?_⟩
    split
    · refine notMem_insert _ (by decide) (notMem_insert _ (by decide) ?_)
      split
      · exact notMem_insert _ (by decide) hvote
      · exact hvote
    · split
      · exact notMem_insert _ (by decide) hvote
      · exact hvote

theorem executeRecovery_shaped (hbase : "" ∉ attributes)
    (h : executeRecovery s tx signer blockHeight attributes = .ok (s', event)) : event.Shaped := by
  simp only [executeRecovery, bind_ok, refuseIf_ok, exists_const, pure_eq_ok, Except.ok.injEq, Prod.mk.injEq] at h
  obtain ⟨_, -, _, -, _, -, _, -, -, _, -, -, _, -, -, -, _, -, -, _, -, -, -, _, -, -, s1, -, s2, -, -, rfl⟩ := h
  exact ⟨by simp, notMem_insert _ (by decide) (notMem_insert _ (by decide) (notMem_insert _ (by decide)
    (notMem_insert _ (by decide) (notMem_insert _ (by decide) hbase))))⟩

theorem executeAccountRecovery_shaped (h : executeAccountRecovery s tx blockHeight = .ok (s', event)) :
    event.Shaped := by
  simp only [executeAccountRecovery, bind_ok] at h
  obtain ⟨action, -, h⟩ := h
  have hbase : "" ∉ (GoMap.ofList [("account", toLower (trimSpace tx.fromAddress)), ("action", action),
      ("signer", toLower (trimSpace tx.signer))] : Fields) := Contracts.notMem_ofList (by simp)
  split at h
  · exact configureRecovery_shaped hbase h
  · split at h
    · exact approveRecovery_shaped hbase h
    · split at h
      · exact executeRecovery_shaped hbase h
      · split at h
        · cases h
          refine ⟨by simp, ?_⟩
          split
          · exact notMem_insert _ (by decide) hbase
          · exact hbase
        · cases h
          exact ⟨by simp, hbase⟩

end Recovery

theorem executeRuntimeValidatorAdmission_shaped [Primitives] {event : Event}
    (h : executeRuntimeValidatorAdmission s tx context = .ok (s', event)) : event.Shaped := by
  simp only [executeRuntimeValidatorAdmission, bind_ok, refuseIf_ok, exists_const, pure_eq_ok, Except.ok.injEq,
    Prod.mk.injEq] at h
  obtain ⟨-, -, _, -, -, _, -, -, -, _, -, -, _, -, _, -, _, -, -, rfl⟩ := h
  exact Contracts.shaped_ofList (by simp) (by simp)

/-- A draft has the fields of the receipt it was started from, but for the code id, the address of a deployment and
the events. -/
structure Draft [Primitives] (tx : Transaction) (receipt draft : Receipt) : Prop where
  txHash : draft.txHash = receipt.txHash
  success : draft.success = receipt.success
  failureCode : draft.failureCode = receipt.failureCode
  error : draft.error = receipt.error
  feePayer : draft.feePayer = receipt.feePayer
  contractAddress : draft.contractAddress = receipt.contractAddress ∨ tx.type = .deploy ∧
    draft.contractAddress = Contracts.contractAddress tx.fromAddress (GoMap.get tx.payload "code_id") tx.hash
  events : ∀ event ∈ draft.events, event.Shaped

section Messages

variable [Primitives] {engine : Contracts.Engine} {gasUsed : UInt64} {receipt draft : Receipt}

theorem draft_of_events {events : List Event} {codeID : String} (h : ∀ event ∈ events, event.Shaped) :
    Draft tx receipt { receipt with codeID, events } :=
  ⟨rfl, rfl, rfl, rfl, rfl, .inl rfl, h⟩

theorem executeBatchOperation_shaped {operation : BatchOperation} {index : Nat} {gasLimit : UInt64}
    {events : List Event}
    (h : (executeBatchOperation (Contracts.runtime engine) s tx operation index gasLimit).2 = .ok (s', events)) :
    ∀ event ∈ events, event.Shaped := by
  unfold executeBatchOperation at h
  split at h
  · simp only [bind_ok, pure_eq_ok, Except.ok.injEq, Prod.mk.injEq] at h
    obtain ⟨_, -, -, rfl⟩ := h
    intro event hevent
    rw [List.mem_singleton.mp hevent]
    exact Contracts.shaped_ofList (by simp) (by simp)
  · simp only [bind_ok, pure_eq_ok, Except.ok.injEq, Prod.mk.injEq] at h
    obtain ⟨⟨called, made⟩, hcall, -, rfl⟩ := h
    exact tagBatchEvents_shaped index (Contracts.callMeteredInTransaction_shaped (Prod.ext rfl hcall))
  · cases h

/-- Induction on the operations: each adds shaped events to shaped events. -/
theorem executeBatch_shaped (operations : List (BatchOperation × Nat)) (s : Store) (gasUsed : UInt64)
    (events : List Event) {made : List Event} (hbase : ∀ event ∈ events, event.Shaped)
    (h : (executeBatch (Contracts.runtime engine) tx operations s gasUsed events).2 = .ok (s', made)) :
    ∀ event ∈ made, event.Shaped := by
  induction operations generalizing s gasUsed events with
  | nil =>
    obtain ⟨-, rfl⟩ := Prod.mk.inj (Except.ok.inj h)
    exact hbase
  | cons entry rest ih =>
    obtain ⟨operation, index⟩ := entry
    obtain ⟨between, gas, new, hfirst, hrest⟩ := continueBatch_ok h
    refine ih between gas (events ++ new) ?_ hrest
    intro event hevent
    rcases List.mem_append.mp hevent with hevent | hevent
    · exact hbase event hevent
    · exact executeBatchOperation_shaped (chargeGas_ok hfirst) event hevent

omit [Primitives] in
theorem shaped_singleton {event : Event} (h : event.Shaped) : ∀ e ∈ [event], e.Shaped := by
  intro e he
  rw [List.mem_singleton.mp he]
  exact h

omit [Primitives] in
theorem append_toList_shaped {events : List Event} {used : Option Event} (h : ∀ event ∈ events, event.Shaped)
    (hused : ∀ event ∈ used, event.Shaped) : ∀ event ∈ events ++ used.toList, event.Shaped := by
  intro event hevent
  rcases List.mem_append.mp hevent with hevent | hevent
  · exact h event hevent
  · exact hused event (Option.mem_toList.mp hevent)

omit [Primitives] in
theorem executeTransfer_shaped {events : List Event} (h : executeTransfer s tx = .ok (s', events)) :
    ∀ event ∈ events, event.Shaped := by
  simp only [executeTransfer, bind_ok, pure_eq_ok, Except.ok.injEq, Prod.mk.injEq] at h
  obtain ⟨_, -, ⟨_, used⟩, hused, -, rfl⟩ := h
  exact append_toList_shaped (shaped_singleton (Contracts.shaped_ofList (by simp) (by simp)))
    (applySessionKeyUsage_shaped hused)

theorem executeCall_shaped {events : List Event}
    (h : (executeCall (Contracts.runtime engine) s tx gasUsed).2 = .ok (s', events)) :
    ∀ event ∈ events, event.Shaped := by
  simp only [executeCall, bind_ok, pure_eq_ok, Except.ok.injEq, Prod.mk.injEq] at h
  obtain ⟨⟨_, made⟩, hcall, ⟨_, used⟩, hused, -, rfl⟩ := h
  exact append_toList_shaped (Contracts.callMeteredInTransaction_shaped (Prod.ext rfl (chargeGas_ok hcall)))
    (applySessionKeyUsage_shaped hused)

/-- A message that succeeds leaves a draft. -/
theorem executeMessage_draft
    (h : (executeMessage (Contracts.runtime engine) s tx context gasUsed receipt).2 = .ok (s', draft)) :
    Draft tx receipt draft := by
  cases htype : tx.type with
  | transfer =>
    simp only [executeMessage, htype, bind_ok, pure_eq_ok, Except.ok.injEq, Prod.mk.injEq] at h
    obtain ⟨done, hrun, -, rfl⟩ := h
    exact draft_of_events (executeTransfer_shaped hrun)
  | batch =>
    simp only [executeMessage, htype, bind_ok, pure_eq_ok, Except.ok.injEq, Prod.mk.injEq] at h
    obtain ⟨done, hrun, -, rfl⟩ := h
    exact draft_of_events (executeBatch_shaped _ _ _ _
      (shaped_singleton (Contracts.shaped_ofList (by simp) (by simp))) hrun)
  | stake =>
    simp only [executeMessage, executeStake, htype, bind_ok, refuseIf_ok, exists_const, pure_eq_ok, Except.ok.injEq,
      Prod.mk.injEq] at h
    obtain ⟨done, ⟨-, _, -, _, -, rfl⟩, -, rfl⟩ := h
    exact draft_of_events (shaped_singleton ⟨by simp, Finmap.notMem_empty⟩)
  | unstake =>
    simp only [executeMessage, executeUnstake, htype, bind_ok, refuseIf_ok, exists_const, pure_eq_ok,
      Except.ok.injEq, Prod.mk.injEq] at h
    obtain ⟨done, ⟨-, -, _, -, _, -, rfl⟩, -, rfl⟩ := h
    exact draft_of_events (shaped_singleton ⟨by simp, Finmap.notMem_empty⟩)
  | validatorSlash =>
    simp only [executeMessage, executeSlash, htype, bind_ok, refuseIf_ok, exists_const, pure_eq_ok, Except.ok.injEq,
      Prod.mk.injEq] at h
    obtain ⟨done, ⟨_, -, _, -, -, -, -, -, _, -, rfl⟩, -, rfl⟩ := h
    exact draft_of_events (shaped_singleton (Contracts.shaped_ofList (by simp) (by simp)))
  | validatorJoin =>
    simp only [executeMessage, htype, bind_ok, pure_eq_ok, Except.ok.injEq, Prod.mk.injEq] at h
    obtain ⟨done, hrun, -, rfl⟩ := h
    exact draft_of_events (shaped_singleton (executeRuntimeValidatorAdmission_shaped hrun))
  | setCode =>
    simp only [executeMessage, htype, bind_ok, pure_eq_ok, Except.ok.injEq, Prod.mk.injEq] at h
    obtain ⟨done, hrun, -, rfl⟩ := h
    exact draft_of_events (shaped_singleton (executeSetCode_shaped hrun))
  | sessionKey =>
    simp only [executeMessage, htype, bind_ok, pure_eq_ok, Except.ok.injEq, Prod.mk.injEq] at h
    obtain ⟨done, hrun, -, rfl⟩ := h
    exact draft_of_events (shaped_singleton (executeSessionKey_shaped hrun))
  | accountRecovery =>
    simp only [executeMessage, htype, bind_ok, pure_eq_ok, Except.ok.injEq, Prod.mk.injEq] at h
    obtain ⟨done, hrun, -, rfl⟩ := h
    exact draft_of_events (shaped_singleton (executeAccountRecovery_shaped hrun))
  | wasmUpload =>
    simp only [executeMessage, executeUpload, htype, bind_ok, pure_eq_ok, Except.ok.injEq, Prod.mk.injEq] at h
    obtain ⟨done, ⟨_, -, _, -, rfl⟩, -, rfl⟩ := h
    exact draft_of_events (shaped_singleton (Contracts.shaped_ofList (by simp) (by simp)))
  | deploy =>
    simp only [executeMessage, htype, bind_ok, pure_eq_ok, Except.ok.injEq, Prod.mk.injEq] at h
    obtain ⟨⟨_, address, events⟩, hrun, -, rfl⟩ := h
    obtain ⟨haddress, hshaped⟩ :=
      Contracts.deployMeteredInTransaction_shaped (Prod.ext rfl (chargeGas_ok hrun))
    exact ⟨rfl, rfl, rfl, rfl, rfl, .inr ⟨htype, haddress⟩, hshaped⟩
  | call =>
    simp only [executeMessage, htype, bind_ok, pure_eq_ok, Except.ok.injEq, Prod.mk.injEq] at h
    obtain ⟨done, hrun, -, rfl⟩ := h
    exact draft_of_events (executeCall_shaped hrun)
  | proposalSubmit | vote | proposalExecute | validatorLeave | unknown =>
    simp [executeMessage, htype] at h

end Messages

/-! ### Gas -/

/-- A runtime that reports no more gas than it was given. -/
structure Runtime.WithinLimit (runtime : Runtime) : Prop where
  deploy : ∀ store creator codeID seed payload gasLimit,
    (runtime.deployMeteredInTransaction store creator codeID seed payload gasLimit).1 ≤ gasLimit
  call : ∀ store address caller method payload gasLimit,
    (runtime.callMeteredInTransaction store address caller method payload gasLimit).1 ≤ gasLimit

theorem runtime_withinLimit [Primitives] (engine : Contracts.Engine) : (Contracts.runtime engine).WithinLimit where
  deploy := Contracts.deployMeteredInTransaction_gas_le engine
  call := Contracts.callMeteredInTransaction_gas_le engine

section Gas

variable {runtime : Runtime} {gasUsed : UInt64}

/-- Gas within what is left is added without overflow and leaves the total within the limit. -/
theorem chargeGas_within {α : Type} (label : String) {limit : UInt64} {ran : UInt64 × Result α}
    (hused : gasUsed ≤ limit) (hran : ran.1 ≤ limit - gasUsed) :
    gasUsed ≤ (chargeGas label gasUsed ran).1 ∧ (chargeGas label gasUsed ran).1 ≤ limit := by
  have hleft := toNat_sub_of_covers (UInt64.le_iff_toNat_le.mp hused)
  have hlimit := limit.toNat_lt
  rw [UInt64.le_iff_toNat_le] at hused hran
  have hsum : (gasUsed + ran.1).toNat = gasUsed.toNat + ran.1.toNat := toNat_add_of_fits (by omega)
  have hadd : checkedAdd gasUsed ran.1 = .ok (gasUsed + ran.1) := checkedAdd_of_fits (by omega)
  have hgas : (chargeGas label gasUsed ran).1 = gasUsed + ran.1 := by
    simp only [chargeGas, accountGas, hadd]
    rfl
  rw [hgas, UInt64.le_iff_toNat_le, UInt64.le_iff_toNat_le, hsum]
  omega

theorem executeBatchOperation_gas_le (hr : runtime.WithinLimit) (s : Store) (tx : Transaction)
    (operation : BatchOperation) (index : Nat) (gasLimit : UInt64) :
    (executeBatchOperation runtime s tx operation index gasLimit).1 ≤ gasLimit := by
  unfold executeBatchOperation
  split
  · exact UInt64.zero_le
  · exact hr.call _ _ _ _ _ _
  · exact UInt64.zero_le

/-- The gas used when an operation of a batch is started: the first starts at the gas used so far, a later one
where the operation before it left off. -/
inductive BatchStarts (runtime : Runtime) (tx : Transaction) :
    List (BatchOperation × Nat) → Store → UInt64 → UInt64 → Prop
  | first (entry : BatchOperation × Nat) (rest : List (BatchOperation × Nat)) (store : Store) (gasUsed : UInt64) :
    BatchStarts runtime tx (entry :: rest) store gasUsed gasUsed
  | later {operation : BatchOperation} {index : Nat} {rest : List (BatchOperation × Nat)} {store after : Store}
    {gasUsed gas started : UInt64} {events : List Event}
    (ran : chargeGas "batch" gasUsed (executeBatchOperation runtime store tx operation index
      (tx.gasLimit - gasUsed)) = (gas, .ok (after, events)))
    (starts : BatchStarts runtime tx rest after gas started) :
    BatchStarts runtime tx ((operation, index) :: rest) store gasUsed started

/-- One round of the batch loop keeps the gas within the limit. -/
theorem batchRound_within (hr : runtime.WithinLimit) (s : Store) (operation : BatchOperation) (index : Nat)
    (hused : gasUsed ≤ tx.gasLimit) :
    gasUsed ≤ (chargeGas "batch" gasUsed
      (executeBatchOperation runtime s tx operation index (tx.gasLimit - gasUsed))).1 ∧
    (chargeGas "batch" gasUsed
      (executeBatchOperation runtime s tx operation index (tx.gasLimit - gasUsed))).1 ≤ tx.gasLimit :=
  chargeGas_within "batch" hused (executeBatchOperation_gas_le hr s tx operation index _)

theorem BatchStarts.within (hr : runtime.WithinLimit) {operations : List (BatchOperation × Nat)} {s : Store}
    {started : UInt64} (h : BatchStarts runtime tx operations s gasUsed started) (hused : gasUsed ≤ tx.gasLimit) :
    gasUsed ≤ started ∧ started ≤ tx.gasLimit := by
  induction h with
  | first => exact ⟨UInt64.le_refl _, hused⟩
  | @later operation index rest store after gasUsed gas started events ran starts ih =>
    have hround := batchRound_within hr store operation index hused
    rw [ran] at hround
    obtain ⟨hlow, hhigh⟩ := ih hround.2
    exact ⟨UInt64.le_trans hround.1 hlow, hhigh⟩

/-- Induction on the operations: whether a round fails or the loop goes on, the gas stays within the limit. -/
theorem executeBatch_within (hr : runtime.WithinLimit) (operations : List (BatchOperation × Nat)) (s : Store)
    (gasUsed : UInt64) (events : List Event) (hused : gasUsed ≤ tx.gasLimit) :
    gasUsed ≤ (executeBatch runtime tx operations s gasUsed events).1 ∧
      (executeBatch runtime tx operations s gasUsed events).1 ≤ tx.gasLimit := by
  induction operations generalizing s gasUsed events with
  | nil => exact ⟨UInt64.le_refl _, hused⟩
  | cons entry rest ih =>
    obtain ⟨operation, index⟩ := entry
    have hround := batchRound_within hr s operation index hused
    unfold executeBatch
    revert hround
    obtain ⟨gas, err | ⟨after, new⟩⟩ := chargeGas "batch" gasUsed
      (executeBatchOperation runtime s tx operation index (tx.gasLimit - gasUsed))
    · exact id
    · intro hround
      obtain ⟨hlow, hhigh⟩ := ih after gas (events ++ new) hround.2
      exact ⟨UInt64.le_trans hround.1 hlow, hhigh⟩

/-- Whatever its outcome, a message uses at least the gas it starts with and at most the limit. -/
theorem executeMessage_within [Primitives] (hr : runtime.WithinLimit) (receipt : Receipt)
    (hused : gasUsed ≤ tx.gasLimit) :
    gasUsed ≤ (executeMessage runtime s tx context gasUsed receipt).1 ∧
      (executeMessage runtime s tx context gasUsed receipt).1 ≤ tx.gasLimit := by
  have hplain : gasUsed ≤ gasUsed ∧ gasUsed ≤ tx.gasLimit := ⟨UInt64.le_refl _, hused⟩
  cases htype : tx.type with
  | batch =>
    simp only [executeMessage, htype]
    exact executeBatch_within hr _ s gasUsed _ hused
  | deploy =>
    simp only [executeMessage, htype]
    exact chargeGas_within "deploy" hused (hr.deploy _ _ _ _ _ _)
  | call =>
    simp only [executeMessage, htype]
    exact chargeGas_within "call" hused (hr.call _ _ _ _ _ _)
  | transfer | stake | unstake | proposalSubmit | vote | proposalExecute | validatorJoin | validatorLeave
  | validatorSlash | setCode | sessionKey | accountRecovery | wasmUpload | unknown =>
    simp only [executeMessage, htype]
    exact hplain

end Gas

/-! ### Hashes and addresses -/

theorem hexText_plain (bytes : List UInt8) :
    ∀ c ∈ (String.ofList ('0' :: 'x' :: hexEncode bytes)).toList, PlainRune c := by
  rw [String.toList_ofList]
  intro c hc
  rcases List.mem_cons.mp hc with rfl | hc
  · decide
  · rcases List.mem_cons.mp hc with rfl | hc
    · decide
    · exact hexEncode_plain bytes c hc

theorem len_hexText (bytes : List UInt8) :
    len (String.ofList ('0' :: 'x' :: hexEncode bytes)) = 2 * bytes.length + 2 := by
  have hascii : ∀ c ∈ '0' :: 'x' :: hexEncode bytes, c.toNat < 128 := by
    intro c hc
    rcases List.mem_cons.mp hc with rfl | hc
    · decide
    · rcases List.mem_cons.mp hc with rfl | hc
      · decide
      · exact hexEncode_ascii bytes c hc
  rw [← length_utf8Bytes, length_utf8Bytes_of_ascii hascii, List.length_cons, List.length_cons, length_hexEncode]

theorem hexText_prefixed (bytes : List UInt8) :
    hasPrefix (String.ofList ('0' :: 'x' :: hexEncode bytes)) "0x" = true := by
  simp [hasPrefix]

theorem validateCanonicalHash_keccakHex [Primitives] (field : String) (data : List UInt8) :
    validateCanonicalHash field (keccakHex data) = .ok () := by
  have hlen : len (keccakHex data) = 66 := by
    rw [keccakHex, len_hexText, (Primitives.keccak data).property]
  have hdecoded : hexDecode ((runes (keccakHex data)).drop 2) = some (Primitives.keccak data).val := by
    rw [keccakHex, runes_eq, String.toList_ofList]
    exact hexDecode_hexEncode _
  have hlower : toLower (keccakHex data) = keccakHex data := toLower_of_plain (hexText_plain _)
  have hprefixed : hasPrefix (keccakHex data) "0x" = true := hexText_prefixed _
  simp only [validateCanonicalHash, bind_ok, refuseIf_ok, exists_const, hlen, hdecoded, hlower, hprefixed]
  simp

theorem hash_eq_keccakHex [Primitives] (tx : Transaction) : ∃ data, tx.hash = keccakHex data := by
  unfold Transaction.hash
  split
  · split
    · next digest hdigest =>
      simp only [ethereumType2TransactionHash, bind_ok, pure_eq_ok, Except.ok.injEq] at hdigest
      obtain ⟨signed, -, rfl⟩ := hdigest
      exact ⟨signed, rfl⟩
    · exact ⟨_, rfl⟩
  · exact ⟨_, rfl⟩

/-- Twenty bytes that are not all zero, written in hexadecimal, are an address. -/
theorem isCanonicalAddress_hexText {bytes : List UInt8} (hlength : bytes.length = 20)
    (hnonzero : bytes.any (· ≠ 0) = true) : IsCanonicalAddress (String.ofList ('0' :: 'x' :: hexEncode bytes)) := by
  have htrim : trimSpace (String.ofList ('0' :: 'x' :: hexEncode bytes)) =
      String.ofList ('0' :: 'x' :: hexEncode bytes) := trimSpace_of_plain (hexText_plain bytes)
  have hlower : toLower (String.ofList ('0' :: 'x' :: hexEncode bytes)) =
      String.ofList ('0' :: 'x' :: hexEncode bytes) := toLower_of_plain (hexText_plain bytes)
  have hlen : len (String.ofList ('0' :: 'x' :: hexEncode bytes)) = 42 := by
    rw [len_hexText, hlength]
  have hdecoded : hexDecode ((runes (String.ofList ('0' :: 'x' :: hexEncode bytes))).drop 2) = some bytes := by
    rw [runes_eq, String.toList_ofList]
    exact hexDecode_hexEncode bytes
  have hpassed : ¬(len (String.ofList ('0' :: 'x' :: hexEncode bytes)) ≠ 42 ∨
      (!hasPrefix (String.ofList ('0' :: 'x' :: hexEncode bytes)) "0x") = true) := by
    rw [hlen, hexText_prefixed]
    decide
  simp only [IsCanonicalAddress, normalizeAddress, htrim, hlower]
  rw [if_neg hpassed, hdecoded]
  simp only [hlength, ne_eq, not_true_eq_false, if_false]
  rw [if_pos hnonzero]

theorem drop_hexEncode (bytes : List UInt8) (n : Nat) : (hexEncode bytes).drop (2 * n) = hexEncode (bytes.drop n) := by
  induction n generalizing bytes with
  | zero => rfl
  | succ n ih =>
    cases bytes with
    | nil => simp [hexEncode]
    | cons b rest => exact ih rest

/-- The hash that a deployment takes its address from does not end in twenty zero bytes. -/
def DerivesAddress [Primitives] (tx : Transaction) : Prop :=
  tx.type = .deploy → ((Primitives.keccak (utf8Bytes (runes (toLower tx.fromAddress ++ "|" ++
    GoMap.get tx.payload "code_id" ++ "|" ++ tx.hash)))).val.drop 12).any (· ≠ 0) = true

theorem DerivesAddress.canonical [Primitives] (h : DerivesAddress tx) (htype : tx.type = .deploy) :
    IsCanonicalAddress (Contracts.contractAddress tx.fromAddress (GoMap.get tx.payload "code_id") tx.hash) := by
  unfold Contracts.contractAddress
  rw [drop_hexEncode _ 12]
  refine isCanonicalAddress_hexText ?_ (h htype)
  rw [List.length_drop, (Primitives.keccak _).property]

/-! ### Fees -/

/-- The fees of a receipt are its gas times the base fee and times the rest of the price. -/
structure WellPriced (receipt : Receipt) : Prop where
  floor : receipt.baseFeePerGas ≤ receipt.effectiveGasPrice
  burned : receipt.baseFeeBurned.toNat = receipt.gasUsed.toNat * receipt.baseFeePerGas.toNat
  priority : receipt.priorityFeePaid.toNat =
    receipt.gasUsed.toNat * (receipt.effectiveGasPrice.toNat - receipt.baseFeePerGas.toNat)

theorem WellPriced.total {receipt : Receipt} (h : WellPriced receipt) :
    receipt.baseFeeBurned.toNat + receipt.priorityFeePaid.toNat =
      receipt.gasUsed.toNat * receipt.effectiveGasPrice.toNat := by
  have hfloor := UInt64.le_iff_toNat_le.mp h.floor
  rw [h.burned, h.priority, ← Nat.mul_add, Nat.add_sub_cancel' hfloor]

theorem wellPriced_of_priced {receipt : Receipt} {fee : FeeBreakdown}
    (h : Priced tx receipt.gasUsed receipt.baseFeePerGas fee) (hprice : receipt.effectiveGasPrice = fee.effectiveGasPrice)
    (hburned : receipt.baseFeeBurned = fee.baseFeeBurned) (hpriority : receipt.priorityFeePaid = fee.priorityFee) :
    WellPriced receipt where
  floor := by
    have hvalue := h.price
    rw [hprice, UInt64.le_iff_toNat_le]
    omega
  burned := by rw [hburned, h.burned]
  priority := by rw [hpriority, h.priority, hprice, h.price, Nat.add_sub_cancel_left]

/-- A product that a 64-bit amount holds is that amount, and passes the overflow check. -/
theorem product_fits {gas rate amount : UInt64} (h : amount.toNat = gas.toNat * rate.toNat) :
    ¬(gas ≠ 0 ∧ rate > maxUint64 / gas) ∧ amount = gas * rate := by
  have hfits : gas.toNat * rate.toNat < 2 ^ 64 := h ▸ amount.toNat_lt
  refine ⟨fun hover => ?_, ?_⟩
  · have := (maxUint64_div_lt hover.1).mp hover.2
    omega
  · rw [← UInt64.toNat_inj, toNat_mul_of_fits hfits, h]

/-- What the receipt schema asks for. -/
theorem validateReceiptSchema_of [Primitives] {receipt : Receipt} (hhash : receipt.txHash = tx.hash)
    (herror : receipt.error = "")
    (hcode : if receipt.success then receipt.failureCode = "" else validReceiptFailureCode receipt.failureCode = true)
    (hpayer : receipt.feePayer ≠ "" → IsCanonicalAddress receipt.feePayer)
    (haddress : receipt.contractAddress ≠ "" → IsCanonicalAddress receipt.contractAddress)
    (hfees : WellPriced receipt) (hevents : ∀ event ∈ receipt.events, event.Shaped) :
    validateReceiptSchema receipt tx.hash = .ok () := by
  obtain ⟨data, hdata⟩ := hash_eq_keccakHex tx
  have hcanonical : validateCanonicalHash "receipt transaction hash" receipt.txHash = .ok () := by
    rw [hhash, hdata]
    exact validateCanonicalHash_keccakHex _ data
  obtain ⟨hbase, hburned⟩ := product_fits hfees.burned
  have hrate := toNat_sub_of_covers (UInt64.le_iff_toNat_le.mp hfees.floor)
  have hpaid : receipt.priorityFeePaid.toNat =
      receipt.gasUsed.toNat * (receipt.effectiveGasPrice - receipt.baseFeePerGas).toNat := by
    rw [hrate, hfees.priority]
  obtain ⟨hover, hpriority⟩ := product_fits hpaid
  have hsucceeded : ¬(receipt.success = true ∧ receipt.failureCode ≠ "") := by
    rintro ⟨hsuccess, hne⟩
    rw [if_pos hsuccess] at hcode
    exact hne hcode
  have hfailed : ¬((!receipt.success) = true ∧ (!validReceiptFailureCode receipt.failureCode) = true) := by
    rintro ⟨hsuccess, hne⟩
    rw [if_neg (by simpa using hsuccess)] at hcode
    rw [hcode] at hne
    cases hne
  simp only [validateReceiptSchema, bind_ok, refuseIf_ok, exists_const, forM_ok]
  refine ⟨(), hcanonical, not_not.mpr hhash, not_not.mpr herror, hsucceeded, hfailed,
    fun h => h.2 (hpayer h.1), fun h => h.2 (haddress h.1), hbase, not_not.mpr hburned,
    UInt64.not_lt.mpr hfees.floor, hover, not_not.mpr hpriority, fun event hevent => ?_⟩
  exact ⟨(hevents event hevent).1, (hevents event hevent).2⟩

theorem validReceiptFailureCode_of (err : GoError) : validReceiptFailureCode (receiptFailureCode err) = true := by
  unfold receiptFailureCode
  split <;> decide

/-! ### The receipts of an execution -/

namespace Executor

variable [Primitives] {e : Executor}

theorem checkReceipt_ok {fault : String} {done made : Store × Receipt} :
    checkReceipt tx fault made = .ok done ↔ validateReceiptSchema made.2 tx.hash = .ok () ∧ made = done := by
  simp only [checkReceipt, bind_ok, mapError_ok, pure_eq_ok, Except.ok.injEq]
  constructor
  · rintro ⟨_, hschema, hsame⟩
    exact ⟨hschema, hsame⟩
  · rintro ⟨hschema, hsame⟩
    exact ⟨(), hschema, hsame⟩

/-- A check that every value passes can be dropped. -/
theorem bind_checkReceipt {fault : String} {outcome : Result (Store × Receipt)}
    (h : ∀ made, outcome = .ok made → validateReceiptSchema made.2 tx.hash = .ok ()) :
    outcome >>= checkReceipt tx fault = outcome := by
  cases outcome with
  | error err => rfl
  | ok made => exact checkReceipt_ok.mpr ⟨h made rfl, rfl⟩

/-- What the checks before execution say about gas and about who pays. -/
theorem prepare_checks {a : Ante} (h : e.prepare store tx context = .ok a) :
    intrinsicGasForTransaction tx context = .ok a.intrinsicGas ∧ a.intrinsicGas ≤ tx.gasLimit ∧
      IsCanonicalAddress a.feePayer ∧ (trimSpace tx.paymaster ≠ "" → IsCanonicalAddress tx.paymaster) := by
  simp only [prepare, bind_ok, refuseIf_ok, exists_const, mapError_ok, pure_eq_ok, Except.ok.injEq] at h
  obtain ⟨-, gas, hgas, hlimit, _, hauth, _, -, -, _, -, raised, -, fee, -, ante, -, rfl⟩ := h
  have henvelope : validateEnvelopeSchema tx = .ok () := by
    simp only [intrinsicGasForTransaction, validateTransactionSchema, bind_ok] at hgas
    obtain ⟨_, ⟨_, henvelope, -⟩, -⟩ := hgas
    exact henvelope
  have hwithin : gas ≤ tx.gasLimit := UInt64.not_lt.mp hlimit
  have hpayer : IsCanonicalAddress (transactionFeePayer tx) := feePayer_canonical henvelope hauth
  dsimp only
  refine ⟨hgas, hwithin, hpayer, ?_⟩
  intro hpaymaster
  by_cases htype : tx.type = .accountRecovery
  · -- the authorization of a recovery refuses a paymaster
    rw [validateTransactionAuthorization, if_pos htype] at hauth
    simp only [validateAccountRecoveryAuthorization, bind_ok, refuseIf_ok, exists_const] at hauth
    obtain ⟨-, -, hnone, -⟩ := hauth
    exact absurd (.inl hpaymaster) hnone
  · exact paymaster_canonical henvelope htype hpaymaster

omit [Primitives] in
theorem failedGas_within {intrinsicGas gasUsed : UInt64} (executionErr : GoError) (hlow : intrinsicGas ≤ gasUsed)
    (hhigh : gasUsed ≤ tx.gasLimit) :
    intrinsicGas ≤ failedGas tx gasUsed executionErr ∧ failedGas tx gasUsed executionErr ≤ tx.gasLimit := by
  unfold failedGas
  split
  · exact ⟨UInt64.le_trans hlow hhigh, UInt64.le_refl _⟩
  · exact ⟨hlow, hhigh⟩

/-- The gas and the fees of a receipt are within the bounds the transaction and the block set. -/
structure ReceiptBounds (tx : Transaction) (context : ExecutionContext) (intrinsicGas : UInt64)
    (receipt : Receipt) : Prop where
  intrinsic : intrinsicGas ≤ receipt.gasUsed
  limit : receipt.gasUsed ≤ tx.gasLimit
  fees : receipt.baseFeeBurned.toNat + receipt.priorityFeePaid.toNat =
    receipt.gasUsed.toNat * receipt.effectiveGasPrice.toNat
  floor : context.baseFeePerGas ≤ receipt.effectiveGasPrice
  cap : receipt.effectiveGasPrice ≤ (feeCaps tx).1
  schema : validateReceiptSchema receipt tx.hash = .ok ()

/-- Bounds on the gas and the fee that was calculated for it are bounds on the receipt. -/
theorem ReportsFee.bounds {receipt : Receipt} {fee : FeeBreakdown} {intrinsicGas : UInt64}
    (h : ReportsFee tx context fee receipt) (hlow : intrinsicGas ≤ receipt.gasUsed)
    (hhigh : receipt.gasUsed ≤ tx.gasLimit) : ReceiptBounds tx context intrinsicGas receipt := by
  obtain ⟨hcaps, hpriced⟩ := calculateFee_priced h.charged
  have hwell : WellPriced receipt := wellPriced_of_priced (h.base ▸ hpriced) h.price h.burned h.priority
  refine ⟨hlow, hhigh, hwell.total, h.base ▸ hwell.floor, ?_, h.schema⟩
  rw [h.price, UInt64.le_iff_toNat_le, hpriced.price]
  exact hcaps.price_le

/-- The receipt of a message that succeeded fits the schema. -/
theorem finishUnchecked_schema {engine : Contracts.Engine} {a : Ante} {working : Store} {draft : Receipt}
    {made : Store × Receipt} (hderives : DerivesAddress tx) (hprep : e.prepare store tx context = .ok a)
    (hruntime : e.runtime = Contracts.runtime engine) (hran : (e.run tx context a).2 = .ok (working, draft))
    (h : e.finishUnchecked tx context a.feePayer a.maximumFee (e.run tx context a).1 working draft = .ok made) :
    validateReceiptSchema made.2 tx.hash = .ok () := by
  obtain ⟨-, -, hpayer, hpaymaster⟩ := prepare_checks hprep
  rw [run, hruntime] at hran
  have hdraft := executeMessage_draft hran
  simp only [finishUnchecked, bind_ok, refuseIf_ok, exists_const, mapError_ok, pure_eq_ok, Except.ok.injEq] at h
  obtain ⟨-, fee, hfee, settled, -, rfl⟩ := h
  obtain ⟨-, hpriced⟩ := calculateFee_priced hfee
  have haddress : draft.contractAddress ≠ "" → IsCanonicalAddress draft.contractAddress := by
    intro hne
    rcases hdraft.contractAddress with hnone | ⟨htype, hderived⟩
    · exact absurd hnone hne
    · rw [hderived]
      exact hderives.canonical htype
  have hcode : if draft.success then draft.failureCode = "" else
      validReceiptFailureCode draft.failureCode = true := by
    rw [hdraft.success, if_pos rfl, hdraft.failureCode]
  have hnone : draft.feePayer = "" := hdraft.feePayer
  -- the three ways of naming the payer give three receipts
  by_cases hsponsored : trimSpace tx.paymaster ≠ ""
  · rw [if_pos hsponsored]
    refine validateReceiptSchema_of hdraft.txHash hdraft.error hcode (fun _ => hpaymaster hsponsored) haddress
      (wellPriced_of_priced hpriced rfl rfl rfl) fun event hevent => ?_
    rcases List.mem_append.mp hevent with hevent | hevent
    · exact hdraft.events event hevent
    · exact shaped_singleton (Contracts.shaped_ofList (by simp) (by simp)) event hevent
  · rw [if_neg hsponsored]
    by_cases hother : a.feePayer ≠ toLower (trimSpace tx.fromAddress)
    · rw [if_pos hother]
      exact validateReceiptSchema_of hdraft.txHash hdraft.error hcode (fun _ => hpayer) haddress
        (wellPriced_of_priced hpriced rfl rfl rfl) hdraft.events
    · rw [if_neg hother]
      exact validateReceiptSchema_of hdraft.txHash hdraft.error hcode (fun hne => absurd hnone hne) haddress
        (wellPriced_of_priced hpriced rfl rfl rfl) hdraft.events

/-- The receipt of a message that failed fits the schema. -/
theorem commitFailedUnchecked_schema {a : Ante} {gasUsed : UInt64} {err : GoError} {made : Store × Receipt}
    (hprep : e.prepare store tx context = .ok a)
    (h : e.commitFailedUnchecked a.ante tx context a.feePayer a.maximumFee gasUsed err = .ok made) :
    validateReceiptSchema made.2 tx.hash = .ok () := by
  obtain ⟨-, -, hpayer, -⟩ := prepare_checks hprep
  simp only [commitFailedUnchecked, bind_ok, mapError_ok, pure_eq_ok, Except.ok.injEq] at h
  obtain ⟨fee, hfee, settled, -, rfl⟩ := h
  obtain ⟨-, hpriced⟩ := calculateFee_priced hfee
  have hcode : if false = true then receiptFailureCode err = "" else
      validReceiptFailureCode (receiptFailureCode err) = true := by
    rw [if_neg Bool.false_ne_true]
    exact validReceiptFailureCode_of err
  refine validateReceiptSchema_of rfl rfl hcode ?_ (fun hne => absurd rfl hne)
    (wellPriced_of_priced hpriced rfl rfl rfl) fun event hevent => absurd hevent List.not_mem_nil
  simp only
  intro hne
  split
  · exact hpayer
  · next hself =>
    rw [if_neg hself] at hne
    exact absurd rfl hne

theorem run_within (hr : e.runtime.WithinLimit) {a : Ante} (hprep : e.prepare store tx context = .ok a) :
    a.intrinsicGas ≤ (e.run tx context a).1 ∧ (e.run tx context a).1 ≤ tx.gasLimit := by
  unfold run
  exact executeMessage_within hr _ (prepare_checks hprep).2.1

theorem commitFailedExecution_bounds (hr : e.runtime.WithinLimit) {a : Ante} {err : GoError} {after : Store}
    {receipt : Receipt} (hprep : e.prepare store tx context = .ok a)
    (h : e.commitFailedExecution a.ante tx context a.feePayer a.maximumFee (e.run tx context a).1 err =
      .ok (after, receipt)) : ReceiptBounds tx context a.intrinsicGas receipt := by
  obtain ⟨hlow, hhigh⟩ := run_within hr hprep
  obtain ⟨hlow, hhigh⟩ := failedGas_within err hlow hhigh
  obtain ⟨fee, hreports, -, hgas, -⟩ := commitFailedExecution_reports h
  exact hreports.bounds (hgas ▸ hlow) (hgas ▸ hhigh)

theorem finish_bounds (hr : e.runtime.WithinLimit) {a : Ante} {working after : Store} {draft receipt : Receipt}
    (hprep : e.prepare store tx context = .ok a)
    (h : e.finish tx context a.feePayer a.maximumFee (e.run tx context a).1 working draft = .ok (after, receipt)) :
    ReceiptBounds tx context a.intrinsicGas receipt := by
  obtain ⟨hlow, hhigh⟩ := run_within hr hprep
  obtain ⟨fee, hreports, -, hgas, -⟩ := finish_reports h
  exact hreports.bounds (hgas ▸ hlow) (hgas ▸ hhigh)

/-- Every receipt that is returned is within its bounds. -/
theorem exists_receiptBounds (hr : e.runtime.WithinLimit) {after : Store} {receipt : Receipt}
    (h : e.executeWithContext store tx context = (after, .ok receipt)) :
    ∃ intrinsicGas, intrinsicGasForTransaction tx context = .ok intrinsicGas ∧
      ReceiptBounds tx context intrinsicGas receipt := by
  obtain ⟨err, hout⟩ | ⟨a, err, after', receipt', hprep, hfail, hout⟩ |
    ⟨a, working, draft, after', receipt', hprep, hran, hfinish, hout⟩ := executeWithContext_cases e store tx context
  · have hno : Except.error err = Except.ok receipt := (Prod.mk.inj (hout.symm.trans h)).2
    cases hno
  · have hsame : receipt' = receipt := Except.ok.inj (Prod.mk.inj (hout.symm.trans h)).2
    exact ⟨a.intrinsicGas, (prepare_checks hprep).1, hsame ▸ commitFailedExecution_bounds hr hprep hfail⟩
  · have hsame : receipt' = receipt := Except.ok.inj (Prod.mk.inj (hout.symm.trans h)).2
    exact ⟨a.intrinsicGas, (prepare_checks hprep).1, hsame ▸ finish_bounds hr hprep hfinish⟩

/-- Receipts of the chain's executor: a receipt that is returned is within its bounds; a batch operation is handed
what the limit leaves, without wrapping around; dropping the schema check of a receipt would change nothing, after a
success and after a failure; and the contract runtime reports gas within the limit it is given. -/
theorem executeWithContext_receipts {engine : Contracts.Engine} (e : Executor)
    (hruntime : e.runtime = Contracts.runtime engine) (store : Store) (tx : Transaction) (context : ExecutionContext)
    (hderives : DerivesAddress tx) :
    (∀ after receipt, e.executeWithContext store tx context = (after, .ok receipt) →
      ∃ intrinsicGas, intrinsicGasForTransaction tx context = .ok intrinsicGas ∧
        ReceiptBounds tx context intrinsicGas receipt) ∧
    (∀ a started, e.prepare store tx context = .ok a →
      BatchStarts e.runtime tx tx.batch.zipIdx a.ante a.intrinsicGas started →
      started.toNat + (tx.gasLimit - started).toNat = tx.gasLimit.toNat) ∧
    (∀ a working draft, e.prepare store tx context = .ok a → (e.run tx context a).2 = .ok (working, draft) →
      e.finish tx context a.feePayer a.maximumFee (e.run tx context a).1 working draft =
        e.finishUnchecked tx context a.feePayer a.maximumFee (e.run tx context a).1 working draft) ∧
    (∀ a err, e.prepare store tx context = .ok a →
      e.commitFailedExecution a.ante tx context a.feePayer a.maximumFee (e.run tx context a).1 err =
        e.commitFailedUnchecked a.ante tx context a.feePayer a.maximumFee (e.run tx context a).1 err) ∧
    e.runtime.WithinLimit := by
  have hr : e.runtime.WithinLimit := hruntime ▸ runtime_withinLimit engine
  refine ⟨fun after receipt h => exists_receiptBounds hr h, fun a started hprep hstarts => ?_,
    fun a working draft hprep hran => ?_, fun a err hprep => ?_, hr⟩
  · obtain ⟨-, hhigh⟩ := hstarts.within hr (prepare_checks hprep).2.1
    rw [UInt64.le_iff_toNat_le] at hhigh
    rw [toNat_sub_of_covers hhigh]
    omega
  · exact bind_checkReceipt fun made h => finishUnchecked_schema hderives hprep hruntime hran h
  · exact bind_checkReceipt fun made h => commitFailedUnchecked_schema hprep h

/-- The chain's executor, with a collector. -/
def labExecutor : Executor :=
  { chainID := "lab-1", feeCollector := "0x0202020202020202020202020202020202020202"
    runtime := Contracts.runtime Contracts.noGuests }

/-- The deployment of a counter. -/
def counterDeployment : Transaction := {
  chainID := "lab-1", type := .deploy, fromAddress := constantKeyAddress, gasLimit := 100000, gasPrice := 1
  payload := GoMap.ofList [("code_id", "counter.v1")], signature := constantSignature }

omit [Primitives] in
theorem executeWithContext_receipts_counterDeployment : letI := constantPrimitives
    DerivesAddress counterDeployment ∧ ∃ after receipt intrinsicGas,
      labExecutor.executeWithContext fundedStore counterDeployment { blockHeight := 1, baseFeePerGas := 1 } =
        (after, .ok receipt) ∧
      intrinsicGasForTransaction counterDeployment { blockHeight := 1, baseFeePerGas := 1 } = .ok intrinsicGas ∧
      ReceiptBounds counterDeployment { blockHeight := 1, baseFeePerGas := 1 } intrinsicGas receipt := by
  let _ := constantPrimitives
  have hderives : DerivesAddress counterDeployment := fun _ => by decide
  obtain ⟨receipt, h⟩ := exists_ok_of_isOk (labExecutor.executeWithContext fundedStore counterDeployment
    { blockHeight := 1, baseFeePerGas := 1 }) (by decide +kernel)
  obtain ⟨intrinsicGas, hgas, hbounds⟩ := (executeWithContext_receipts labExecutor rfl fundedStore counterDeployment
    { blockHeight := 1, baseFeePerGas := 1 } hderives).1 _ receipt h
  exact ⟨hderives, _, receipt, intrinsicGas, h, hgas, hbounds⟩

end Executor

end ChainLab.Core
