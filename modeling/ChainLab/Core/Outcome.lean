import ChainLab.Core.Effects

/-! The three outcomes of executing a transaction, and the supply of native value across it. -/

namespace ChainLab.Core.Executor

open ChainLab.Lib ChainLab.Types ChainLab.Crypto ChainLab.State ChainLab.State.Store

variable [Primitives] {e : Executor} {store after : Store} {tx : Transaction} {context : ExecutionContext}

/-! ### Inversion -/

/-- The run of a message once its fee is in escrow. -/
def run (e : Executor) (tx : Transaction) (context : ExecutionContext) (a : Ante) :
    UInt64 × Result (Store × Receipt) :=
  executeMessage e.runtime a.ante tx context a.intrinsicGas { txHash := tx.hash, success := true }

/-- An error leaves the store as it was; a receipt comes from the escrow copy if the message failed and
from the working copy if it succeeded. -/
theorem executeWithContext_cases (e : Executor) (store : Store) (tx : Transaction) (context : ExecutionContext) :
    (∃ err, e.executeWithContext store tx context = (store, .error err)) ∨
    (∃ a err after receipt, e.prepare store tx context = .ok a ∧
      e.commitFailedExecution a.ante tx context a.feePayer a.maximumFee (e.run tx context a).1 err =
        .ok (after, receipt) ∧
      e.executeWithContext store tx context = (after, .ok receipt)) ∨
    (∃ a working draft after receipt, e.prepare store tx context = .ok a ∧
      (e.run tx context a).2 = .ok (working, draft) ∧
      e.finish tx context a.feePayer a.maximumFee (e.run tx context a).1 working draft = .ok (after, receipt) ∧
      e.executeWithContext store tx context = (after, .ok receipt)) := by
  unfold executeWithContext
  cases hprep : e.prepare store tx context with
  | error err => exact .inl ⟨err, rfl⟩
  | ok a =>
    have hstart : start store (e.execute store tx context) (.ok a) =
        conclude store (e.commitFailedExecution a.ante tx context a.feePayer a.maximumFee (e.run tx context a).1)
          ((e.run tx context a).2 >>= fun done =>
            e.finish tx context a.feePayer a.maximumFee (e.run tx context a).1 done.1 done.2) := rfl
    rw [hstart]
    cases hout : (e.run tx context a).2 >>= fun done =>
        e.finish tx context a.feePayer a.maximumFee (e.run tx context a).1 done.1 done.2 with
    | ok done =>
      obtain ⟨⟨working, draft⟩, hran, hfinish⟩ := bind_ok.mp hout
      exact .inr (.inr ⟨a, working, draft, done.1, done.2, rfl, hran, hfinish, rfl⟩)
    | error err =>
      unfold conclude
      by_cases hfatal : isFatalExecutionError err
      · exact .inl ⟨err, by simp [hfatal]⟩
      · cases hfail : e.commitFailedExecution a.ante tx context a.feePayer a.maximumFee (e.run tx context a).1 err with
        | error err' => exact .inl ⟨err', by simp [hfatal, hfail, commit]⟩
        | ok done =>
          exact .inr (.inl ⟨a, err, done.1, done.2, rfl, hfail, by simp [hfatal, hfail, commit]⟩)

/-! ### Records -/

omit [Primitives] in
private theorem or_reverse {p q r : Prop} : p ∨ q ∨ r ↔ r ∨ q ∨ p := by tauto

omit [Primitives] in
private theorem or_absorb {p q r t : Prop} : (p ∨ q ∨ r) ∨ r ∨ t ↔ p ∨ q ∨ r ∨ t := by tauto

theorem mem_accounts_prepare {a : Ante} (h : e.prepare store tx context = .ok a) (b : Address) :
    b ∈ a.ante.accounts ↔ b ∈ store.accounts ∨ b = normalize tx.fromAddress ∨
      b = normalize (transactionFeePayer tx) := by
  simp only [prepare, bind_ok, refuseIf_ok, exists_const, mapError_ok, pure_eq_ok, Except.ok.injEq] at h
  obtain ⟨-, _, -, -, _, -, _, -, -, _, -, raised, hraise, fee, -, ante, hescrow, rfl⟩ := h
  rw [mem_accounts_subBalance hescrow, mem_accounts_incrementNonce hraise]
  exact or_reverse

omit [Primitives] in
theorem mem_accounts_settleFeeEscrow {feeCollector payer : String} {maximumFee : UInt64} {fee : FeeBreakdown}
    (h : settleFeeEscrow feeCollector store payer maximumFee fee = .ok after) (b : Address) :
    b ∈ after.accounts ↔ b ∈ store.accounts ∨ b = normalize payer ∨
      (feeCollector ≠ "" ∧ fee.priorityFee ≠ 0 ∧ b = normalize feeCollector) := by
  simp only [settleFeeEscrow, bind_ok, refuseIf_ok, exists_const, mapError_ok] at h
  obtain ⟨-, refunded, hrefund, h⟩ := h
  have hrefunded := mem_accounts_addBalance hrefund b
  split at h
  · next hnone =>
    obtain rfl : refunded = after := by simpa using h
    have hno : ¬(feeCollector ≠ "" ∧ fee.priorityFee ≠ 0 ∧ b = normalize feeCollector) :=
      fun hall => hnone.elim hall.1 hall.2.1
    rw [hrefunded, or_comm]
    simp only [hno, or_false]
  · next hsome =>
    rw [not_or] at hsome
    rw [mapError_ok] at h
    have hyes : (feeCollector ≠ "" ∧ fee.priorityFee ≠ 0 ∧ b = normalize feeCollector) ↔
        b = normalize feeCollector := ⟨fun hall => hall.2.2, fun hb => ⟨hsome.1, hsome.2, hb⟩⟩
    rw [mem_accounts_addBalance h, hrefunded, hyes]
    exact or_reverse

/-! ### Outcomes -/

/-- The sender's nonce is one larger and no other nonce differs. -/
def NonceRaised (store after : Store) (tx : Transaction) : Prop :=
  ∀ a, after.nonceOf a = store.nonceOf a + if a = normalize tx.fromAddress then 1 else 0

/-- An error is returned and the store is unchanged. -/
def Refused (store : Store) (outcome : Store × Result Receipt) : Prop :=
  (∃ err, outcome.2 = .error err) ∧ outcome.1 = store

/-- A failed receipt: apart from the sender's nonce and the settled fee every read answers as before.
The only account records that can be new are those of the sender, the payer and a credited collector. -/
def Failed (e : Executor) (store : Store) (tx : Transaction) (outcome : Store × Result Receipt) : Prop :=
  ∃ receipt, outcome.2 = .ok receipt ∧ receipt.success = false ∧ FundsOnly store outcome.1 ∧
    NonceRaised store outcome.1 tx ∧
    (∀ a, (outcome.1.balance a : ℤ) = store.balance a +
      feeEffect e.feeCollector (transactionFeePayer tx) receipt.baseFeeBurned receipt.priorityFeePaid a) ∧
    ∀ a, a ∈ outcome.1.accounts ↔ a ∈ store.accounts ∨ a = normalize tx.fromAddress ∨
      a = normalize (transactionFeePayer tx) ∨
      (e.feeCollector ≠ "" ∧ receipt.priorityFeePaid ≠ 0 ∧ a = normalize e.feeCollector)

/-- A successful receipt: the sender's nonce, the settled fee and the moves the transaction states. -/
def Succeeded (e : Executor) (store : Store) (tx : Transaction) (outcome : Store × Result Receipt) : Prop :=
  ∃ receipt, outcome.2 = .ok receipt ∧ receipt.success = true ∧ NonceRaised store outcome.1 tx ∧
    ∀ a, (outcome.1.balance a : ℤ) = store.balance a +
      feeEffect e.feeCollector (transactionFeePayer tx) receipt.baseFeeBurned receipt.priorityFeePaid a +
      valueMoves tx a

private theorem failed_of_commit {a : Ante} {gasUsed : UInt64} {err : GoError} {receipt : Receipt}
    (hprep : e.prepare store tx context = .ok a)
    (hfail : e.commitFailedExecution a.ante tx context a.feePayer a.maximumFee gasUsed err =
      .ok (after, receipt)) : e.Failed store tx (after, .ok receipt) := by
  obtain ⟨hpayer, hframe, hnonce, hescrow, -⟩ := prepare_spec hprep
  obtain ⟨hsuccess, hframe', hnonce', hsettled, -⟩ := commitFailedExecution_spec hfail
  refine ⟨receipt, rfl, hsuccess, hframe.trans hframe', fun b => ?_, fun b => ?_, fun b => ?_⟩
  · rw [hnonce' b, hnonce b]
  · have hb := hescrow b
    rw [hsettled b, ← hpayer, ← hb]
    push_cast
    ring
  · obtain ⟨fee, hreports, hsettle, -⟩ := commitFailedExecution_reports hfail
    rw [hreports.priority, mem_accounts_settleFeeEscrow hsettle, mem_accounts_prepare hprep, hpayer]
    exact or_absorb

private theorem succeeded_of_finish {a : Ante} {working : Store} {draft receipt : Receipt}
    (hr : e.runtime.KeepsFunds) (hprep : e.prepare store tx context = .ok a)
    (hran : (e.run tx context a).2 = .ok (working, draft))
    (hfinish : e.finish tx context a.feePayer a.maximumFee (e.run tx context a).1 working draft =
      .ok (after, receipt)) : e.Succeeded store tx (after, .ok receipt) := by
  obtain ⟨hpayer, -, hnonce, hescrow, -⟩ := prepare_spec hprep
  obtain ⟨hdraft, hmoves⟩ := executeMessage_moves hr hran
  obtain ⟨hsuccess, -, hnonce', hsettled, -⟩ := finish_spec hfinish
  refine ⟨receipt, rfl, hsuccess.trans hdraft, fun b => ?_, fun b => ?_⟩
  · rw [hnonce' b, hmoves.nonce b, hnonce b]
  · have hb := hescrow b
    rw [hsettled b, hmoves.balance b, ← hpayer, ← hb]
    push_cast
    ring

/-- Every execution has exactly one of the three outcomes, whatever the runtime does to storage, code
and contract records. -/
theorem executeWithContext_outcome (e : Executor) (hr : e.runtime.KeepsFunds) (store : Store)
    (tx : Transaction) (context : ExecutionContext) :
    (Refused store (e.executeWithContext store tx context) ∨
      e.Failed store tx (e.executeWithContext store tx context) ∨
      e.Succeeded store tx (e.executeWithContext store tx context)) ∧
    ¬(Refused store (e.executeWithContext store tx context) ∧
      e.Failed store tx (e.executeWithContext store tx context)) ∧
    ¬(Refused store (e.executeWithContext store tx context) ∧
      e.Succeeded store tx (e.executeWithContext store tx context)) ∧
    ¬(e.Failed store tx (e.executeWithContext store tx context) ∧
      e.Succeeded store tx (e.executeWithContext store tx context)) := by
  refine ⟨?_, ?_, ?_, ?_⟩
  · obtain ⟨err, h⟩ | ⟨a, err, after, receipt, hprep, hfail, h⟩ |
      ⟨a, working, draft, after, receipt, hprep, hran, hfinish, h⟩ :=
      executeWithContext_cases e store tx context
    · rw [h]; exact .inl ⟨⟨err, rfl⟩, rfl⟩
    · rw [h]; exact .inr (.inl (failed_of_commit hprep hfail))
    · rw [h]; exact .inr (.inr (succeeded_of_finish hr hprep hran hfinish))
  · rintro ⟨⟨⟨err, herr⟩, -⟩, receipt, hok, -⟩
    rw [herr] at hok
    cases hok
  · rintro ⟨⟨⟨err, herr⟩, -⟩, receipt, hok, -⟩
    rw [herr] at hok
    cases hok
  · rintro ⟨⟨receipt, hok, hfalse, -⟩, receipt', hok', htrue, -⟩
    rw [hok] at hok'
    cases hok'
    rw [hfalse] at htrue
    cases htrue

/-- A runtime whose calls leave a note in the called account's storage. -/
def noteRuntime : Runtime where
  deployMeteredInTransaction _ _ _ _ _ _ := (0, .error (sentinelError .unknownContractCode))
  callMeteredInTransaction store address _ _ _ _ := (0, do
    let noted ← store.setStorage address "note" "called"
    return (noted, []))
  validateAndCacheWasmCode _ := .ok ()

omit [Primitives] in
theorem noteRuntime_keepsFunds : noteRuntime.KeepsFunds where
  deploy h := by cases h
  call h := by
    simp only [noteRuntime, Prod.mk.injEq, bind_ok, pure_eq_ok, Except.ok.injEq] at h
    obtain ⟨-, noted, hset, rfl, -⟩ := h
    exact (setStorage_frame hset).sameFunds

def noteExecutor : Executor :=
  { chainID := "lab-1", feeCollector := "0x0202020202020202020202020202020202020202", runtime := noteRuntime }

def fundedStore : Store := ({} : Store).setBalance constantKeyAddress 100000

/-- Seven units sent to the fee collector at two units of fee per unit of gas. -/
def paidTransfer : Transaction := {
  chainID := "lab-1", type := .transfer, fromAddress := constantKeyAddress
  toAddress := "0x0202020202020202020202020202020202020202", value := 7, gasLimit := 21000, gasPrice := 2
  signature := constantSignature }

omit [Primitives] in
theorem executeWithContext_outcome_paidTransfer :
    Refused fundedStore (@executeWithContext constantPrimitives noteExecutor fundedStore paidTransfer
        { blockHeight := 1, baseFeePerGas := 1 }) ∨
      noteExecutor.Failed fundedStore paidTransfer (@executeWithContext constantPrimitives
        noteExecutor fundedStore paidTransfer { blockHeight := 1, baseFeePerGas := 1 }) ∨
      noteExecutor.Succeeded fundedStore paidTransfer (@executeWithContext constantPrimitives
        noteExecutor fundedStore paidTransfer { blockHeight := 1, baseFeePerGas := 1 }) :=
  (@executeWithContext_outcome constantPrimitives noteExecutor noteRuntime_keepsFunds fundedStore paidTransfer
    { blockHeight := 1, baseFeePerGas := 1 }).1

/-! ### Supply -/

/-- Native value is conserved: what is not in balances and stakes any more was burned as a fee, destroyed
by a slash, or is a priority fee nobody collects. Every balance and every stake changes by its exact
integer amount, so none wraps around. -/
theorem executeWithContext_supply (e : Executor) (hr : e.runtime.KeepsFunds) (store after : Store)
    (tx : Transaction) (context : ExecutionContext) (receipt : Receipt)
    (h : e.executeWithContext store tx context = (after, .ok receipt)) :
    store.supply = after.supply + receipt.baseFeeBurned.toNat +
        (if receipt.success then destroyedStake store tx else 0) +
        (if e.feeCollector = "" then receipt.priorityFeePaid.toNat else 0) ∧
      (∀ a, (after.balance a : ℤ) = store.balance a +
        feeEffect e.feeCollector (transactionFeePayer tx) receipt.baseFeeBurned receipt.priorityFeePaid a +
        if receipt.success then valueMoves tx a else 0) ∧
      ∀ a, (after.stake a : ℤ) = store.stake a + if receipt.success then stakeMoves store tx a else 0 := by
  obtain ⟨err, h'⟩ | ⟨a, err, after', receipt', hprep, hfail, h'⟩ |
    ⟨a, working, draft, after', receipt', hprep, hran, hfinish, h'⟩ :=
    executeWithContext_cases e store tx context
  · rw [h'] at h
    cases h
  · rw [h'] at h
    obtain ⟨rfl, rfl⟩ : after' = after ∧ receipt' = receipt := by simpa using h
    obtain ⟨receipt'', hok, hsuccess, hframe, -, hbalance, -⟩ := failed_of_commit hprep hfail
    obtain rfl : receipt' = receipt'' := by simpa using hok
    obtain ⟨-, -, -, -, hsupply⟩ := prepare_spec hprep
    obtain ⟨-, -, -, -, hsupply'⟩ := commitFailedExecution_spec hfail
    unfold feeBurned at hsupply'
    refine ⟨?_, fun b => ?_, fun b => ?_⟩
    · simp only [hsuccess, Bool.false_eq_true, if_false]
      omega
    · simpa [hsuccess] using hbalance b
    · simpa [hsuccess] using hframe.stake b
  · rw [h'] at h
    obtain ⟨rfl, rfl⟩ : after' = after ∧ receipt' = receipt := by simpa using h
    obtain ⟨receipt'', hok, hsuccess, -, hbalance⟩ := succeeded_of_finish hr hprep hran hfinish
    obtain rfl : receipt' = receipt'' := by simpa using hok
    obtain ⟨-, hframe, -, -, hsupply⟩ := prepare_spec hprep
    obtain ⟨-, hmoves⟩ := executeMessage_moves hr hran
    obtain ⟨-, hframe', -, -, hsupply'⟩ := finish_spec hfinish
    have hdestroyed : destroyedStake a.ante tx = destroyedStake store tx := by
      unfold destroyedStake
      split
      · exact hframe.stake _
      · rfl
    have hslashed : ∀ b, stakeMoves a.ante tx b = stakeMoves store tx b := fun b => by
      unfold stakeMoves slashedStake
      simp only [hframe.stake]
    have hmoved := hmoves.supply
    unfold feeBurned at hsupply'
    refine ⟨?_, fun b => ?_, fun b => ?_⟩
    · simp only [hsuccess, if_true]
      omega
    · simpa [hsuccess] using hbalance b
    · simp only [hsuccess, if_true]
      rw [hframe'.stake b, hmoves.stake b, hframe.stake b, hslashed b]

omit [Primitives] in
theorem exists_ok_of_isOk (outcome : Store × Result Receipt) (h : outcome.2.isOk = true) :
    ∃ receipt, outcome = (outcome.1, .ok receipt) := by
  obtain ⟨after, err | receipt⟩ := outcome
  · cases h
  · exact ⟨receipt, rfl⟩

omit [Primitives] in
theorem executeWithContext_supply_paidTransfer : ∃ after receipt,
    @executeWithContext constantPrimitives noteExecutor fundedStore paidTransfer
      { blockHeight := 1, baseFeePerGas := 1 } = (after, .ok receipt) ∧
    fundedStore.supply = after.supply + receipt.baseFeeBurned.toNat +
      (if receipt.success then @destroyedStake constantPrimitives fundedStore paidTransfer else 0) +
      (if noteExecutor.feeCollector = "" then receipt.priorityFeePaid.toNat else 0) := by
  obtain ⟨receipt, h⟩ := exists_ok_of_isOk (@executeWithContext constantPrimitives noteExecutor
    fundedStore paidTransfer { blockHeight := 1, baseFeePerGas := 1 }) (by decide +kernel)
  exact ⟨_, receipt, h, (@executeWithContext_supply constantPrimitives noteExecutor noteRuntime_keepsFunds
    fundedStore _ paidTransfer _ receipt h).1⟩

end ChainLab.Core.Executor
