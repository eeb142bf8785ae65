import ChainLab.Contracts.Token

/-! The fee escrow: when the credit checks made before execution cover everything credited after it. -/

namespace ChainLab.Core

open ChainLab.Lib ChainLab.Types ChainLab.Crypto ChainLab.State ChainLab.State.Store

variable {s s' store : Store} {tx : Transaction} {baseFeePerGas gasUsed : UInt64}

/-! ### Checked operations that go through -/

theorem checkedAdd_of_fits {left right : UInt64} (h : left.toNat + right.toNat < 2 ^ 64) :
    checkedAdd left right = .ok (left + right) := by
  simp only [checkedAdd, bind_ok, refuseIf_ok, maxUint64_sub_lt, exists_const, pure_eq_ok, and_true]
  omega

theorem checkedMul_of_fits {left right : UInt64} (h : left.toNat * right.toNat < 2 ^ 64) :
    checkedMul left right = .ok (left * right) := by
  simp only [checkedMul, bind_ok, refuseIf_ok, exists_const, pure_eq_ok, and_true]
  rintro ⟨hzero, hover⟩
  exact Nat.not_le_of_lt h ((maxUint64_div_lt hzero).mp hover)

theorem addBalance_of_fits {address : String} {amount : UInt64}
    (h : s.balance (normalize address) + amount.toNat < 2 ^ 64) : ∃ s', s.addBalance address amount = .ok s' := by
  simp only [addBalance, bind_ok, refuseIf_ok, maxUint64_sub_lt, exists_const, pure_eq_ok, Except.ok.injEq]
  exact ⟨_, Nat.not_le_of_lt h, rfl⟩

theorem subBalance_of_covers {address : String} {amount : UInt64}
    (h : amount.toNat ≤ s.balance (normalize address)) : ∃ s', s.subBalance address amount = .ok s' := by
  simp only [subBalance, bind_ok, refuseIf_ok, UInt64.lt_iff_toNat_lt, exists_const, pure_eq_ok, Except.ok.injEq]
  exact ⟨_, Nat.not_lt_of_le h, rfl⟩

/-! ### Prices -/

/-- The priority fee per unit of gas: what is offered, within what the base fee leaves of the cap. -/
def priorityRate (tx : Transaction) (baseFeePerGas : UInt64) : Nat :=
  min (feeCaps tx).2.toNat ((feeCaps tx).1.toNat - baseFeePerGas.toNat)

/-- The caps of a transaction that `calculateFee` accepts under a base fee. -/
def CapsCover (tx : Transaction) (baseFeePerGas : UInt64) : Prop :=
  baseFeePerGas ≤ (feeCaps tx).1 ∧ (feeCaps tx).2 ≤ (feeCaps tx).1

/-- A fee is the amount of gas times the price, in each of its parts. -/
structure Priced (tx : Transaction) (gasUsed baseFeePerGas : UInt64) (fee : FeeBreakdown) : Prop where
  price : fee.effectiveGasPrice.toNat = baseFeePerGas.toNat + priorityRate tx baseFeePerGas
  total : fee.totalFee.toNat = gasUsed.toNat * fee.effectiveGasPrice.toNat
  burned : fee.baseFeeBurned.toNat = gasUsed.toNat * baseFeePerGas.toNat
  priority : fee.priorityFee.toNat = gasUsed.toNat * priorityRate tx baseFeePerGas

theorem CapsCover.price_le (h : CapsCover tx baseFeePerGas) :
    baseFeePerGas.toNat + priorityRate tx baseFeePerGas ≤ (feeCaps tx).1.toNat := by
  have hbase := UInt64.le_iff_toNat_le.mp h.1
  unfold priorityRate
  omega

/-- The branch of `calculateFee` that picks the smaller of the offered and the available priority fee. -/
private theorem toNat_priority (h : CapsCover tx baseFeePerGas) :
    (if (feeCaps tx).2 > (feeCaps tx).1 - baseFeePerGas then (feeCaps tx).1 - baseFeePerGas
      else (feeCaps tx).2).toNat = priorityRate tx baseFeePerGas := by
  have hleft := toNat_sub_of_covers (UInt64.le_iff_toNat_le.mp h.1)
  unfold priorityRate
  split
  · next hmore =>
    rw [gt_iff_lt, UInt64.lt_iff_toNat_lt] at hmore
    omega
  · next hless =>
    rw [gt_iff_lt, UInt64.lt_iff_toNat_lt] at hless
    omega

theorem calculateFee_priced {fee : FeeBreakdown} (h : calculateFee tx gasUsed baseFeePerGas = .ok fee) :
    CapsCover tx baseFeePerGas ∧ Priced tx gasUsed baseFeePerGas fee := by
  simp only [calculateFee, bind_ok, refuseIf_ok, exists_const, pure_eq_ok, Except.ok.injEq] at h
  obtain ⟨hbase, hoffer, price, hprice, total, htotal, burned, hburned, priority, hpriority, rfl⟩ := h
  have hcaps : CapsCover tx baseFeePerGas := ⟨UInt64.not_lt.mp hbase, UInt64.not_lt.mp hoffer⟩
  refine ⟨hcaps, ?_, checkedMul_toNat htotal, checkedMul_toNat hburned, ?_⟩
  · rw [checkedAdd_toNat hprice, toNat_priority hcaps]
  · rw [checkedMul_toNat hpriority, toNat_priority hcaps]

/-- Gas whose cost at the cap fits in 64 bits can be priced. -/
theorem calculateFee_of_fits (hcaps : CapsCover tx baseFeePerGas)
    (hfits : gasUsed.toNat * (feeCaps tx).1.toNat < 2 ^ 64) :
    ∃ fee, calculateFee tx gasUsed baseFeePerGas = .ok fee := by
  have hrate := toNat_priority hcaps
  have hprice := hcaps.price_le
  have hcap := (feeCaps tx).1.toNat_lt
  -- each product is below the cost at the cap, because each rate is below the cap
  have below : ∀ rate, rate ≤ (feeCaps tx).1.toNat → gasUsed.toNat * rate < 2 ^ 64 := fun rate hrate =>
    lt_of_le_of_lt (Nat.mul_le_mul_left _ hrate) hfits
  simp only [calculateFee, bind_ok, refuseIf_ok, exists_const, pure_eq_ok, Except.ok.injEq]
  refine ⟨_, UInt64.not_lt.mpr hcaps.1, UInt64.not_lt.mpr hcaps.2, _, checkedAdd_of_fits ?_, _,
    checkedMul_of_fits ?_, _, checkedMul_of_fits (below _ (by omega)), _, checkedMul_of_fits ?_, rfl⟩
  · rw [hrate]
    omega
  · rw [toNat_add_of_fits (by rw [hrate]; omega), hrate]
    exact below _ hprice
  · rw [hrate]
    exact below _ (by omega)

/-! ### Credits -/

theorem toLower_trimSpace_eq {text other : String} :
    toLower (trimSpace text) = toLower (trimSpace other) ↔ normalize text = normalize other := by
  constructor
  · intro h
    exact Subtype.ext h
  · intro h
    have hval : (normalize text).val = (normalize other).val := by rw [h]
    exact hval

private theorem incoming_of_fold {target : Address} (batch : List BatchOperation) (start incoming : UInt64)
    (h : batch.foldlM (fun incoming (operation : BatchOperation) =>
      if ¬operation.type = .transfer ∨ ¬normalize operation.toAddress = target then .ok incoming
      else (checkedAdd incoming operation.value).mapError fun _ => newError "recipient balance overflow")
      start = (.ok incoming : Result UInt64)) :
    (incoming.toNat : ℤ) = start.toNat + (batch.map fun operation : BatchOperation =>
      if operation.type = .transfer ∧ normalize operation.toAddress = target then
        (operation.value.toNat : ℤ) else 0).sum := by
  induction batch generalizing start with
  | nil =>
    obtain rfl := Except.ok.inj h
    simp
  | cons operation rest ih =>
    rw [List.foldlM_cons, bind_ok] at h
    obtain ⟨next, hnext, hrest⟩ := h
    rw [List.map_cons, List.sum_cons, ih next hrest]
    by_cases hhit : operation.type = .transfer ∧ normalize operation.toAddress = target
    · have hmiss := not_not_intro hhit
      rw [not_and_or] at hmiss
      rw [if_neg hmiss, mapError_ok] at hnext
      rw [if_pos hhit, checkedAdd_toNat hnext]
      push_cast
      ring
    · have hmiss := not_and_or.mp hhit
      rw [if_pos hmiss] at hnext
      obtain rfl := Except.ok.inj hnext
      rw [if_neg hhit, zero_add]

/-- What a message credits to an account with a name is counted by `transactionIncomingValue`. -/
theorem valueMoves_le_incoming {target : String} {incoming : UInt64}
    (h : transactionIncomingValue tx target = .ok incoming) (hnamed : toLower (trimSpace target) ≠ "") :
    valueMoves tx (normalize target) ≤ incoming.toNat := by
  have hzero : (0 : ℤ) ≤ incoming.toNat := Int.natCast_nonneg _
  simp only [transactionIncomingValue, if_neg hnamed, ne_eq, toLower_trimSpace_eq] at h
  cases htype : tx.type with
  | transfer =>
    simp only [htype] at h
    simp only [valueMoves, htype, transferMove]
    split at h
    · next hhit =>
      obtain rfl := Except.ok.inj h
      rw [if_pos hhit.2.symm, if_neg hhit.1]
      simp
    · next hmiss =>
      split_ifs <;> first | omega | exact absurd ⟨‹_›, Eq.symm ‹_›⟩ hmiss
  | batch =>
    simp only [htype] at h
    simp only [valueMoves, htype]
    split at h
    · next hself =>
      -- a batch only debits its own sender
      refine le_trans (List.sum_le_card_nsmul _ 0 ?_) (by simp)
      intro move hmove
      obtain ⟨operation, -, rfl⟩ := List.mem_map.mp hmove
      simp only [operationMove, transferMove, hself]
      split_ifs <;> simp
    · next hother =>
      rw [incoming_of_fold tx.batch 0 incoming h, UInt64.toNat_zero, Nat.cast_zero, zero_add]
      refine List.sum_le_sum fun operation _ => ?_
      simp only [operationMove, transferMove, if_neg hother, sub_zero]
      split_ifs <;> first | rfl | simp_all
  | unstake =>
    simp only [htype] at h
    simp only [valueMoves, htype]
    split at h
    · next hself =>
      obtain rfl := Except.ok.inj h
      rw [if_pos hself]
    · next hother => rwa [if_neg hother]
  | stake =>
    simp only [valueMoves, htype]
    split_ifs <;> omega
  | _ =>
    simp only [valueMoves, htype]
    exact hzero

/-- Without a name, only a recovery step can pay for a sender that has one. -/
theorem valueMoves_of_blank_payer (hsender : trimSpace tx.fromAddress ≠ "") (hpayer : transactionFeePayer tx = "")
    (a : Address) : valueMoves tx a = 0 := by
  simp only [transactionFeePayer] at hpayer
  split at hpayer
  · next hsponsor => exact absurd (toLower_eq_empty.mp hpayer) hsponsor
  · split at hpayer
    · next hrecovery => simp only [valueMoves, hrecovery.1]
    · exact absurd (toLower_eq_empty.mp hpayer) hsender

/-- The payer's name is written in lower case and without blanks. -/
theorem val_normalize_feePayer (tx : Transaction) :
    (normalize (transactionFeePayer tx)).val = transactionFeePayer tx := by
  have hval : ∀ text : String, (normalize (toLower (trimSpace text))).val = toLower (trimSpace text) :=
    toLower_trimSpace_idem
  unfold transactionFeePayer
  split
  · exact hval _
  · split <;> exact hval _

/-! ### What the capacity check establishes -/

/-- An account can take what the message credits to it and `additional` more. -/
def RoomFor (store : Store) (tx : Transaction) (a : Address) (additional : Nat) : Prop :=
  store.balance a + max 0 (valueMoves tx a) + additional < 2 ^ 64

/-- The check of one recipient. -/
theorem roomFor_of_capacity {target : String} {additional : UInt64}
    (h : validateExecutionCreditCapacity store tx target additional = .ok ())
    (hmoves : toLower (trimSpace target) = "" → valueMoves tx (normalize target) ≤ 0) :
    RoomFor store tx (normalize target) additional.toNat := by
  simp only [validateExecutionCreditCapacity, bind_ok, mapError_ok, refuseIf_ok, gt_iff_lt, maxUint64_sub_lt] at h
  obtain ⟨incoming, hincoming, total, htotal, hroom⟩ := h
  have hsum := checkedAdd_toNat htotal
  have hbalance : (store.getAccount target).balance.toNat = store.balance (normalize target) := rfl
  have hmoved : max 0 (valueMoves tx (normalize target)) ≤ incoming.toNat := by
    refine max_le (Int.natCast_nonneg _) ?_
    by_cases hblank : toLower (trimSpace target) = ""
    · exact (hmoves hblank).trans (Int.natCast_nonneg _)
    · exact valueMoves_le_incoming hincoming hblank
  unfold RoomFor
  omega

/-- What a transaction that passes the capacity check can pay, and where there is room. -/
structure Funded (feeCollector : String) (store : Store) (tx : Transaction) (baseFeePerGas maximumFee : UInt64) :
    Prop where
  caps : CapsCover tx baseFeePerGas
  cost : maximumTransactionFee tx = .ok maximumFee
  covers : maximumFee.toNat ≤ store.balance (normalize (transactionFeePayer tx))
  payer : RoomFor store tx (normalize (transactionFeePayer tx)) 0
  collector : trimSpace feeCollector ≠ "" → normalize feeCollector ≠ normalize (transactionFeePayer tx) →
    RoomFor store tx (normalize feeCollector) (tx.gasLimit.toNat * priorityRate tx baseFeePerGas)

theorem funded_of_capacity {feeCollector : String} (hsender : trimSpace tx.fromAddress ≠ "")
    (h : validateFeeCapacity feeCollector store tx baseFeePerGas = .ok ()) :
    ∃ maximumFee, Funded feeCollector store tx baseFeePerGas maximumFee := by
  simp only [validateFeeCapacity, bind_ok, refuseIf_ok, checkWhen_ok, exists_const] at h
  obtain ⟨none, hnone, maximumFee, hcost, hcovers, _, -, -, -, ⟨⟩, hpayer, hcollector⟩ := h
  refine ⟨maximumFee, (calculateFee_priced hnone).1, hcost, ?_, ?_, fun hnamed hother => ?_⟩
  · exact UInt64.le_iff_toNat_le.mp (UInt64.not_lt.mp hcovers)
  · refine roomFor_of_capacity hpayer fun hblank => (valueMoves_of_blank_payer hsender ?_ _).le
    rw [← hblank]
    exact (val_normalize_feePayer tx).symm
  · have hnamed' : toLower (trimSpace feeCollector) ≠ "" := fun hblank => hnamed (toLower_eq_empty.mp hblank)
    have hother' : toLower (trimSpace feeCollector) ≠ transactionFeePayer tx := fun hsame =>
      hother (Subtype.ext (hsame.trans (val_normalize_feePayer tx).symm))
    obtain ⟨most, hmost, hroom⟩ := hcollector ⟨hnamed', hother'⟩
    rw [← (calculateFee_priced hmost).2.priority, ← normalize_lower feeCollector]
    refine roomFor_of_capacity hroom fun hblank => absurd ?_ hnamed'
    rw [← hblank, toLower_trimSpace_idem]

theorem incrementNonce_of_new (h : store.nonceOf (normalize tx.fromAddress) = 0) :
    ∃ raised, store.incrementNonce tx.fromAddress = .ok raised := by
  simp only [incrementNonce, bind_ok, refuseIf_ok, exists_const, pure_eq_ok, Except.ok.injEq]
  refine ⟨_, fun hmax => ?_, rfl⟩
  have := congrArg UInt64.toNat hmax
  rw [toNat_maxUint64] at this
  exact absurd (h.symm.trans this) (by decide)

/-! ### Settling -/

/-- Settling goes through when the payer has room for the whole escrow and the collector for the priority fee. -/
theorem settleFeeEscrow_of_room {feeCollector payer : String} {maximumFee : UInt64} {fee : FeeBreakdown}
    (htotal : fee.totalFee.toNat ≤ maximumFee.toNat) (hpart : fee.priorityFee.toNat ≤ fee.totalFee.toNat)
    (hpayer : s.balance (normalize payer) + maximumFee.toNat < 2 ^ 64)
    (hcollector : feeCollector ≠ "" → normalize feeCollector ≠ normalize payer →
      s.balance (normalize feeCollector) + fee.priorityFee.toNat < 2 ^ 64) :
    ∃ s', settleFeeEscrow feeCollector s payer maximumFee fee = .ok s' := by
  have hleft := toNat_sub_of_covers htotal
  have hrefund : ∃ refunded, s.addBalance payer (maximumFee - fee.totalFee) = .ok refunded :=
    addBalance_of_fits (by omega)
  obtain ⟨refunded, hrefund⟩ := hrefund
  have hnotmore : ¬fee.totalFee > maximumFee := UInt64.not_lt.mpr (UInt64.le_iff_toNat_le.mpr htotal)
  simp only [settleFeeEscrow, bind_ok, refuseIf_ok, exists_const, mapError_ok]
  by_cases hnone : feeCollector = "" ∨ fee.priorityFee = 0
  · exact ⟨refunded, hnotmore, refunded, hrefund, if_pos hnone⟩
  · have hafter := (addBalance_spec hrefund).2.2.1 (normalize feeCollector)
    have hcredit : ∃ credited, refunded.addBalance feeCollector fee.priorityFee = .ok credited := by
      apply addBalance_of_fits
      rw [hafter]
      by_cases hsame : normalize feeCollector = normalize payer
      · rw [if_pos hsame, hsame]
        omega
      · rw [if_neg hsame]
        exact hcollector (fun hempty => hnone (.inl hempty)) hsame
    obtain ⟨credited, hcredit⟩ := hcredit
    exact ⟨credited, hnotmore, refunded, hrefund, by rw [if_neg hnone, mapError_ok]; exact hcredit⟩

section Settling

variable [Primitives]

/-- How a message can end: it fails and the escrow copy is kept, or it succeeds on the working copy. -/
inductive ExecutionOutcome (tx : Transaction) (ante : Store) : Store → Prop
  | failed : ExecutionOutcome tx ante ante
  | succeeded (engine : Contracts.Engine) (context : ExecutionContext) (gasUsed : UInt64)
      (receipt receipt' : Receipt) {working : Store}
      (h : (executeMessage (Contracts.runtime engine) ante tx context gasUsed receipt).2 = .ok (working, receipt')) :
      ExecutionOutcome tx ante working

/-- The maximum fee can be reserved, and whatever the message does and however much of the limit it uses, the
fee is calculated and the escrow settled, with every balance the exact sum. -/
def EscrowSettles (feeCollector : String) (store : Store) (tx : Transaction) (baseFeePerGas : UInt64) : Prop :=
  ∀ raised, store.incrementNonce tx.fromAddress = .ok raised →
    ∃ maximumFee ante, maximumTransactionFee tx = .ok maximumFee ∧
      raised.subBalance (transactionFeePayer tx) maximumFee = .ok ante ∧
      ∀ outcome gasUsed, ExecutionOutcome tx ante outcome → gasUsed ≤ tx.gasLimit →
        ∃ fee settled, calculateFee tx gasUsed baseFeePerGas = .ok fee ∧
          settleFeeEscrow feeCollector outcome (transactionFeePayer tx) maximumFee fee = .ok settled ∧
          ∀ a, (settled.balance a : ℤ) = outcome.balance a +
            (if a = normalize (transactionFeePayer tx) then (maximumFee.toNat : ℤ) else 0) +
            feeEffect feeCollector (transactionFeePayer tx) fee.baseFeeBurned fee.priorityFee a

theorem ExecutionOutcome.balance_le {ante outcome : Store} (h : ExecutionOutcome tx ante outcome) (a : Address) :
    (outcome.balance a : ℤ) ≤ ante.balance a + max 0 (valueMoves tx a) := by
  cases h with
  | failed =>
    have := le_max_left 0 (valueMoves tx a)
    omega
  | succeeded _ _ _ _ _ hrun =>
    have := (executeMessage_moves (Contracts.runtime_keepsFunds _) hrun).2.balance a
    have := le_max_right 0 (valueMoves tx a)
    omega

/-- A transaction with the funds for it settles, if the collector is one the capacity check looks at. -/
theorem escrowSettles_of_funded {feeCollector : String} {maximumFee : UInt64}
    (hcollector : feeCollector = "" ∨ trimSpace feeCollector ≠ "")
    (h : Funded feeCollector store tx baseFeePerGas maximumFee) :
    EscrowSettles feeCollector store tx baseFeePerGas := by
  intro raised hraise
  have hraised := (incrementNonce_spec hraise).2.2
  have hcost := checkedMul_toNat h.cost
  have hreserve : ∃ ante, raised.subBalance (transactionFeePayer tx) maximumFee = .ok ante :=
    subBalance_of_covers (by rw [hraised]; exact h.covers)
  obtain ⟨ante, hante⟩ := hreserve
  have hheld := (subBalance_spec hante).2.2.1
  refine ⟨maximumFee, ante, h.cost, hante, fun outcome gasUsed hout hgas => ?_⟩
  -- the gas used costs at most what the limit costs at the cap
  have hmost : gasUsed.toNat * (feeCaps tx).1.toNat ≤ maximumFee.toNat := by
    rw [hcost]
    exact Nat.mul_le_mul_right _ (UInt64.le_iff_toNat_le.mp hgas)
  obtain ⟨fee, hfee⟩ := calculateFee_of_fits h.caps (lt_of_le_of_lt hmost maximumFee.toNat_lt)
  have hpriced := (calculateFee_priced hfee).2
  have htotal : fee.totalFee.toNat ≤ maximumFee.toNat := by
    rw [hpriced.total, hpriced.price]
    exact (Nat.mul_le_mul_left _ h.caps.price_le).trans hmost
  have hsettle : ∃ settled, settleFeeEscrow feeCollector outcome (transactionFeePayer tx) maximumFee fee =
      .ok settled := by
    refine settleFeeEscrow_of_room htotal ?_ ?_ fun hsome hother => ?_
    · rw [calculateFee_total hfee]
      omega
    · have hroom := h.payer
      have hmoved := hout.balance_le (normalize (transactionFeePayer tx))
      have hreserved := hheld (normalize (transactionFeePayer tx))
      rw [if_pos rfl, hraised] at hreserved
      unfold RoomFor at hroom
      omega
    · have hroom := h.collector (hcollector.resolve_left hsome) hother
      have hmoved := hout.balance_le (normalize feeCollector)
      have hkept := hheld (normalize feeCollector)
      have hpart : fee.priorityFee.toNat ≤ tx.gasLimit.toNat * priorityRate tx baseFeePerGas := by
        rw [hpriced.priority]
        exact Nat.mul_le_mul_right _ (UInt64.le_iff_toNat_le.mp hgas)
      rw [if_neg hother, hraised] at hkept
      unfold RoomFor at hroom
      omega
  obtain ⟨settled, hsettle⟩ := hsettle
  exact ⟨fee, settled, hfee, hsettle, (settleFeeEscrow_spec hsettle (calculateFee_total hfee)).2.2.1⟩

/-! ### The credits nobody checks -/

/-- A collector without room for the priority fee of the whole limit makes settling fail, whatever is checked
before. -/
theorem not_escrowSettles_of_full_collector {feeCollector : String}
    (hnonce : store.nonceOf (normalize tx.fromAddress) = 0) (hsome : feeCollector ≠ "")
    (hother : normalize feeCollector ≠ normalize (transactionFeePayer tx))
    (hfull : 2 ^ 64 ≤ store.balance (normalize feeCollector) +
      tx.gasLimit.toNat * priorityRate tx baseFeePerGas) :
    ¬EscrowSettles feeCollector store tx baseFeePerGas := by
  intro hsettles
  obtain ⟨raised, hraise⟩ := incrementNonce_of_new hnonce
  obtain ⟨maximumFee, ante, -, hante, hevery⟩ := hsettles raised hraise
  obtain ⟨fee, settled, hfee, -, hexact⟩ := hevery ante tx.gasLimit .failed (UInt64.le_refl _)
  have hkept := (subBalance_spec hante).2.2.1 (normalize feeCollector)
  rw [if_neg hother, (incrementNonce_spec hraise).2.2] at hkept
  have hcredit := hexact (normalize feeCollector)
  rw [if_neg hother, feeEffect, if_pos ⟨hsome, rfl⟩, if_neg hother, (calculateFee_priced hfee).2.priority] at hcredit
  have hbound : settled.balance (normalize feeCollector) < 2 ^ 64 := UInt64.toNat_lt _
  omega

/-- What the capacity check accepts is settled, if the collector is either absent or has a name and the sender has
one. -/
theorem escrow_settles (feeCollector : String) (store : Store) (tx : Transaction) (baseFeePerGas : UInt64)
    (hcollector : feeCollector = "" ∨ trimSpace feeCollector ≠ "") (hsender : trimSpace tx.fromAddress ≠ "")
    (hcapacity : validateFeeCapacity feeCollector store tx baseFeePerGas = .ok ()) :
    EscrowSettles feeCollector store tx baseFeePerGas := by
  obtain ⟨maximumFee, hfunded⟩ := funded_of_capacity hsender hcapacity
  exact escrowSettles_of_funded hcollector hfunded

omit [Primitives] in
/-- The sender is the payer, and the recipient is the collector. -/
theorem escrow_settles_paidTransfer : letI := constantPrimitives
    EscrowSettles Executor.paidTransfer.toAddress Executor.fundedStore Executor.paidTransfer 1 := by
  let _ := constantPrimitives
  exact escrow_settles _ _ _ _ (.inr (by decide +kernel)) (by decide +kernel) (by decide +kernel)

/-- The fault an outcome reports. -/
def faultOf (outcome : Store × Result Receipt) : Option Sentinel :=
  match outcome.2 with
  | .ok _ => none
  | .error err => err.sentinel

/-- The account without a name holds all it can, beside the funded sender. -/
def blankHolderStore : Store := Executor.fundedStore.setBalance "" maxUint64

/-- The chain's executor with one blank for a collector. -/
def blankCollectorExecutor : Executor :=
  { chainID := "lab-1", feeCollector := " ", runtime := Contracts.runtime Contracts.noGuests }

omit [Primitives] in
/-- A chain whose collector is one blank halts at the first transaction that pays a priority fee. -/
theorem blankCollector_faults : letI := constantPrimitives
    validateFeeCapacity " " blankHolderStore Executor.paidTransfer 1 = .ok () ∧
      faultOf (blankCollectorExecutor.executeWithContext blankHolderStore Executor.paidTransfer
        { blockHeight := 1, baseFeePerGas := 1 }) = some .consensusExecutionFault ∧
      ¬EscrowSettles " " blankHolderStore Executor.paidTransfer 1 := by
  let _ := constantPrimitives
  refine ⟨by decide +kernel, by decide +kernel, ?_⟩
  refine not_escrowSettles_of_full_collector ?_ (by decide) ?_ ?_
  all_goals decide +kernel

end Settling

end ChainLab.Core
