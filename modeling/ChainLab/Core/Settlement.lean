import ChainLab.Core.Frames

/-! The fee side of execution: what is taken into escrow before the message runs, and what settling the
escrow returns. All sums are over natural numbers; nothing wraps around. -/

namespace ChainLab.Core

open ChainLab.Lib ChainLab.Types ChainLab.Crypto ChainLab.State ChainLab.State.Store

variable {s s' : Store} {tx : Transaction}

theorem checkedAdd_toNat {left right sum : UInt64} (h : checkedAdd left right = .ok sum) :
    sum.toNat = left.toNat + right.toNat := by
  simp only [checkedAdd, bind_ok, refuseIf_ok, maxUint64_sub_lt, exists_const, pure_eq_ok,
    Except.ok.injEq, not_le] at h
  obtain ⟨hfits, rfl⟩ := h
  exact toNat_add_of_fits hfits

theorem checkedMul_toNat {left right product : UInt64} (h : checkedMul left right = .ok product) :
    product.toNat = left.toNat * right.toNat := by
  simp only [checkedMul, bind_ok, refuseIf_ok, exists_const, pure_eq_ok, Except.ok.injEq] at h
  obtain ⟨hfits, rfl⟩ := h
  by_cases hz : left = 0
  · simp [hz]
  · have hlt : ¬2 ^ 64 ≤ left.toNat * right.toNat := fun hle =>
      hfits ⟨hz, (maxUint64_div_lt hz).mpr hle⟩
    exact toNat_mul_of_fits (Nat.lt_of_not_le hlt)

/-- The total fee is the burned part and the priority part, with no rounding. -/
theorem calculateFee_total {gasUsed baseFeePerGas : UInt64} {fee : FeeBreakdown}
    (h : calculateFee tx gasUsed baseFeePerGas = .ok fee) :
    fee.totalFee.toNat = fee.baseFeeBurned.toNat + fee.priorityFee.toNat := by
  simp only [calculateFee, bind_ok, refuseIf_ok, exists_const, pure_eq_ok, Except.ok.injEq] at h
  obtain ⟨-, -, price, hprice, total, htotal, burned, hburned, priority, hpriority, rfl⟩ := h
  rw [checkedMul_toNat htotal, checkedMul_toNat hburned, checkedMul_toNat hpriority,
    checkedAdd_toNat hprice, Nat.mul_add]

/-- What a settled fee does to a balance: the payer pays the total and a collector gets the priority part. -/
def feeEffect (feeCollector feePayer : String) (baseFeeBurned priorityFeePaid : UInt64) (a : Address) : ℤ :=
  (if feeCollector ≠ "" ∧ a = normalize feeCollector then (priorityFeePaid.toNat : ℤ) else 0) -
    if a = normalize feePayer then (baseFeeBurned.toNat + priorityFeePaid.toNat : ℤ) else 0

/-- What leaves the supply with a fee: the burned part, and the priority part if nobody collects it. -/
def feeBurned (feeCollector : String) (baseFeeBurned priorityFeePaid : UInt64) : Nat :=
  baseFeeBurned.toNat + if feeCollector = "" then priorityFeePaid.toNat else 0

theorem settleFeeEscrow_spec {feeCollector payer : String} {maximumFee : UInt64} {fee : FeeBreakdown}
    (h : settleFeeEscrow feeCollector s payer maximumFee fee = .ok s')
    (htotal : fee.totalFee.toNat = fee.baseFeeBurned.toNat + fee.priorityFee.toNat) :
    FundsOnly s s' ∧ (∀ a, s'.nonceOf a = s.nonceOf a) ∧
      (∀ a, (s'.balance a : ℤ) = s.balance a + (if a = normalize payer then (maximumFee.toNat : ℤ) else 0) +
        feeEffect feeCollector payer fee.baseFeeBurned fee.priorityFee a) ∧
      s'.supply + feeBurned feeCollector fee.baseFeeBurned fee.priorityFee = s.supply + maximumFee.toNat := by
  simp only [settleFeeEscrow, bind_ok, refuseIf_ok, exists_const, mapError_ok] at h
  obtain ⟨hcovers, refunded, hrefund, h⟩ := h
  rw [gt_iff_lt, UInt64.lt_iff_toNat_lt, not_lt] at hcovers
  have hleft := toNat_sub_of_covers hcovers
  obtain ⟨f1, n1, b1, t1⟩ := addBalance_spec hrefund
  split at h
  · next hnone =>
    cases h
    have hzero : feeCollector ≠ "" → fee.priorityFee.toNat = 0 := fun hne => by
      rw [hnone.resolve_left hne]; rfl
    refine ⟨f1, n1, fun a => ?_, ?_⟩
    · have := b1 a
      unfold feeEffect
      split_ifs at this ⊢ <;> simp_all <;> omega
    · unfold feeBurned
      split <;> simp_all <;> omega
  · next hsome =>
    rw [not_or] at hsome
    rw [mapError_ok] at h
    obtain ⟨f2, n2, b2, t2⟩ := addBalance_spec h
    refine ⟨f1.trans f2, fun a => (n2 a).trans (n1 a), fun a => ?_, ?_⟩
    · have h1 := b1 a
      have h2 := b2 a
      unfold feeEffect
      split_ifs at h1 h2 ⊢ <;> simp_all <;> omega
    · unfold feeBurned
      rw [if_neg hsome.1]
      omega

theorem chargeGas_ok {α : Type} {label : String} {gasUsed : UInt64} {ran : UInt64 × Result α} {value : α}
    (h : (chargeGas label gasUsed ran).2 = .ok value) : ran.2 = .ok value := by
  obtain ⟨-, -, h⟩ := bind_ok.mp h
  exact h

namespace Executor

variable [Primitives] {e : Executor} {context : ExecutionContext}

/-- Before the message runs, the sender's nonce is raised and the maximum fee is taken from the payer. -/
theorem prepare_spec {a : Ante} (h : e.prepare s tx context = .ok a) :
    a.feePayer = transactionFeePayer tx ∧ FundsOnly s a.ante ∧
      (∀ b, a.ante.nonceOf b = s.nonceOf b + if b = normalize tx.fromAddress then 1 else 0) ∧
      (∀ b, a.ante.balance b + (if b = normalize a.feePayer then a.maximumFee.toNat else 0) = s.balance b) ∧
      a.ante.supply + a.maximumFee.toNat = s.supply := by
  simp only [prepare, bind_ok, refuseIf_ok, exists_const, mapError_ok, pure_eq_ok, Except.ok.injEq] at h
  obtain ⟨-, _, -, -, _, -, _, -, -, _, -, raised, hraise, fee, -, ante, hescrow, rfl⟩ := h
  obtain ⟨f1, n1, b1⟩ := incrementNonce_spec hraise
  obtain ⟨f2, n2, b2, t2⟩ := subBalance_spec hescrow
  dsimp only
  refine ⟨rfl, f1.trans f2, ?_, ?_, ?_⟩
  · intro b
    rw [n2 b, n1 b]
  · intro b
    rw [b2 b, b1 b]
  · rw [t2, supply_congr b1 f1.stake]

/-- A receipt that passed its check and reports the fee for its gas. -/
structure ReportsFee (tx : Transaction) (context : ExecutionContext) (fee : FeeBreakdown) (receipt : Receipt) :
    Prop where
  charged : calculateFee tx receipt.gasUsed context.baseFeePerGas = .ok fee
  base : receipt.baseFeePerGas = context.baseFeePerGas
  price : receipt.effectiveGasPrice = fee.effectiveGasPrice
  burned : receipt.baseFeeBurned = fee.baseFeeBurned
  priority : receipt.priorityFeePaid = fee.priorityFee
  schema : validateReceiptSchema receipt tx.hash = .ok ()

theorem finish_reports {feePayer : String} {maximumFee gasUsed : UInt64} {receipt receipt' : Receipt}
    (h : e.finish tx context feePayer maximumFee gasUsed s receipt = .ok (s', receipt')) :
    ∃ fee, ReportsFee tx context fee receipt' ∧ settleFeeEscrow e.feeCollector s feePayer maximumFee fee = .ok s' ∧
      receipt'.gasUsed = gasUsed ∧ receipt'.success = receipt.success ∧
      receipt'.contractAddress = receipt.contractAddress := by
  simp only [finish, finishUnchecked, checkReceipt, bind_assoc, bind_ok, refuseIf_ok, exists_const, mapError_ok,
    pure_eq_ok, Except.ok.injEq] at h
  obtain ⟨-, fee, hfee, settled, hsettle, _, rfl, _, hschema, ⟨⟩⟩ := h
  refine ⟨fee, ⟨hfee, rfl, rfl, rfl, rfl, hschema⟩, hsettle, rfl, ?_, ?_⟩
  -- however the payer is named, the receipt's other fields stay
  all_goals
    dsimp only
    split
    · rfl
    · split <;> rfl

theorem commitFailedExecution_reports {feePayer : String} {maximumFee gasUsed : UInt64} {err : GoError}
    {receipt : Receipt}
    (h : e.commitFailedExecution s tx context feePayer maximumFee gasUsed err = .ok (s', receipt)) :
    ∃ fee, ReportsFee tx context fee receipt ∧ settleFeeEscrow e.feeCollector s feePayer maximumFee fee = .ok s' ∧
      receipt.gasUsed = failedGas tx gasUsed err ∧ receipt.success = false := by
  simp only [commitFailedExecution, commitFailedUnchecked, checkReceipt, bind_assoc, bind_ok, mapError_ok,
    pure_eq_ok, Except.ok.injEq] at h
  obtain ⟨fee, hfee, settled, hsettle, _, rfl, _, hschema, ⟨⟩⟩ := h
  exact ⟨fee, ⟨hfee, rfl, rfl, rfl, rfl, hschema⟩, hsettle, rfl, rfl⟩

/-- Once the message has run, the escrow is settled on the working store. -/
theorem finish_spec {feePayer : String} {maximumFee gasUsed : UInt64} {receipt receipt' : Receipt}
    (h : e.finish tx context feePayer maximumFee gasUsed s receipt = .ok (s', receipt')) :
    receipt'.success = receipt.success ∧ FundsOnly s s' ∧ (∀ a, s'.nonceOf a = s.nonceOf a) ∧
      (∀ a, (s'.balance a : ℤ) = s.balance a +
        (if a = normalize feePayer then (maximumFee.toNat : ℤ) else 0) +
        feeEffect e.feeCollector feePayer receipt'.baseFeeBurned receipt'.priorityFeePaid a) ∧
      s'.supply + feeBurned e.feeCollector receipt'.baseFeeBurned receipt'.priorityFeePaid =
        s.supply + maximumFee.toNat := by
  obtain ⟨fee, hreports, hsettle, -, hsuccess, -⟩ := finish_reports h
  rw [hreports.burned, hreports.priority]
  exact ⟨hsuccess, settleFeeEscrow_spec hsettle (calculateFee_total hreports.charged)⟩

theorem commitFailedExecution_spec {feePayer : String} {maximumFee gasUsed : UInt64} {err : GoError}
    {receipt : Receipt}
    (h : e.commitFailedExecution s tx context feePayer maximumFee gasUsed err = .ok (s', receipt)) :
    receipt.success = false ∧ FundsOnly s s' ∧ (∀ a, s'.nonceOf a = s.nonceOf a) ∧
      (∀ a, (s'.balance a : ℤ) = s.balance a +
        (if a = normalize feePayer then (maximumFee.toNat : ℤ) else 0) +
        feeEffect e.feeCollector feePayer receipt.baseFeeBurned receipt.priorityFeePaid a) ∧
      s'.supply + feeBurned e.feeCollector receipt.baseFeeBurned receipt.priorityFeePaid =
        s.supply + maximumFee.toNat := by
  obtain ⟨fee, hreports, hsettle, -, hsuccess⟩ := commitFailedExecution_reports h
  rw [hreports.burned, hreports.priority]
  exact ⟨hsuccess, settleFeeEscrow_spec hsettle (calculateFee_total hreports.charged)⟩

end Executor

end ChainLab.Core
