import ChainLab.Lib.Ceiling
import ChainLab.Types.Block

/-! The replacement rule of the transaction pool: a transaction takes the place of one with the same sender and
nonce only for the same signers and for fees raised by a tenth, rounded up. -/

namespace ChainLab.Node

open ChainLab.Lib ChainLab.Types

def txpoolReplacementPriceBump : UInt64 := 10

/-- `normalizedAddress`. -/
def normalizedAddress (address : String) : String := toLower (trimSpace address)

/-- `bumpedFeeThreshold`, with no value where it reports an overflow. -/
def bumpedFeeThreshold (oldFee percent : UInt64) : Option UInt64 :=
  if oldFee = 0 then some 0
  else
    let whole := oldFee / 100
    let remainder := oldFee % 100
    if percent ≠ 0 ∧ whole > maxUint64 / percent then none
    else
      let bump := whole * percent
      if percent ≠ 0 ∧ remainder > maxUint64 / percent then none
      else
        let remainderProduct := remainder * percent
        if maxUint64 - bump < remainderProduct / 100 then none
        else
          let bump := bump + remainderProduct / 100
          let bump := if remainderProduct % 100 ≠ 0 then bump + 1 else bump
          let bump := if bump = 0 then 1 else bump
          if maxUint64 - oldFee < bump then none else some (oldFee + bump)

/-- `feeBumpedByPercent`. -/
def feeBumpedByPercent (oldFee newFee percent : UInt64) : Bool :=
  (bumpedFeeThreshold oldFee percent).any fun required => newFee ≥ required

/-- `replacementFeeCaps`: the maximum fee and the maximum priority fee per unit of gas. -/
def replacementFeeCaps (tx : Transaction) : UInt64 × UInt64 :=
  if tx.maxFeePerGas > 0 ∨ tx.maxPriorityFeePerGas > 0 then (tx.maxFeePerGas, tx.maxPriorityFeePerGas)
  else (tx.gasPrice, tx.gasPrice)

/-- `replacementAuthorizationIdentity`. -/
def replacementAuthorizationIdentity (tx : Transaction) : String :=
  if tx.authorizations.length > 0 then
    let signers := tx.authorizations.map fun authorization => normalizedAddress authorization.signer
    "multisig:" ++ ",".intercalate (signers.mergeSort fun a b => a ≤ b)
  else
    let signer := normalizedAddress tx.signer
    let signer := if signer = "" then normalizedAddress tx.fromAddress else signer
    trimSpace tx.signatureKind ++ ":" ++ signer

/-- `canReplacePendingTransaction`. -/
def canReplacePendingTransaction (oldTx newTx : Transaction) : Result Unit := do
  refuseIf (replacementAuthorizationIdentity oldTx ≠ replacementAuthorizationIdentity newTx)
    (newError "replacement transaction authorization differs")
  let (oldMaxFee, oldPriorityFee) := replacementFeeCaps oldTx
  let (newMaxFee, newPriorityFee) := replacementFeeCaps newTx
  refuseIf (!feeBumpedByPercent oldMaxFee newMaxFee txpoolReplacementPriceBump ∨
      !feeBumpedByPercent oldPriorityFee newPriorityFee txpoolReplacementPriceBump)
    (newError "replacement transaction underpriced")

/-! ### The threshold in exact integers -/

/-- The least fee that replaces another one: larger by a share in percent, rounded up, and by at least one. -/
def bumpedFee (fee percent : Nat) : Nat := fee + max 1 ((fee * percent) ⌈/⌉ 100)

section Threshold

variable {oldFee percent product whole bump : UInt64}

theorem toNat_hundred : (100 : UInt64).toNat = 100 := rfl

/-- Neither part of a share of at most the whole leaves the word. -/
theorem share_parts_fit (hpercent : percent.toNat ≤ 100) :
    (oldFee / 100).toNat * percent.toNat < 2 ^ 64 ∧ (oldFee % 100).toNat * percent.toNat < 2 ^ 64 := by
  have hbound := oldFee.toNat_lt
  have hwhole : oldFee.toNat / 100 * percent.toNat ≤ oldFee.toNat / 100 * 100 := Nat.mul_le_mul_left _ hpercent
  have hremainder : oldFee.toNat % 100 * percent.toNat ≤ oldFee.toNat % 100 * 100 := Nat.mul_le_mul_left _ hpercent
  rw [UInt64.toNat_div, UInt64.toNat_mod, toNat_hundred]
  omega

theorem not_quotient_lt {a : UInt64} (h : a.toNat * percent.toNat < 2 ^ 64) :
    ¬(percent ≠ 0 ∧ a > maxUint64 / percent) := by
  rintro ⟨hne, hlt⟩
  rw [gt_iff_lt, maxUint64_div_lt hne, Nat.mul_comm] at hlt
  omega

/-- The share, rounded up, from its two products. -/
theorem share_eq (hpercent : percent.toNat ≤ 100) :
    (oldFee.toNat * percent.toNat) ⌈/⌉ 100 =
      (oldFee / 100 * percent).toNat + (oldFee % 100 * percent).toNat ⌈/⌉ 100 := by
  obtain ⟨hwhole, hremainder⟩ := @share_parts_fit oldFee percent hpercent
  rw [toNat_mul_of_fits hwhole, toNat_mul_of_fits hremainder, UInt64.toNat_div, UInt64.toNat_mod, toNat_hundred,
    ceilDiv_mul_split _ _ (by decide)]

/-- The code rounds up by looking at the remainder. -/
theorem rounded_up (h : whole.toNat + product.toNat ⌈/⌉ 100 < 2 ^ 64) :
    ¬maxUint64 - whole < product / 100 ∧
      (if product % 100 ≠ 0 then whole + product / 100 + 1 else whole + product / 100).toNat =
        whole.toNat + product.toNat ⌈/⌉ 100 := by
  have hquotient : (product / 100).toNat = product.toNat / 100 := by rw [UInt64.toNat_div, toNat_hundred]
  have hrest : product % 100 ≠ 0 ↔ product.toNat % 100 ≠ 0 := by
    rw [← toNat_hundred, ← UInt64.toNat_mod, Ne, Ne, ← UInt64.toNat_inj]
    rfl
  rw [ceilDiv_eq_div_add _ (by decide)] at h ⊢
  have hfits : whole.toNat + (product / 100).toNat < 2 ^ 64 := by
    rw [hquotient]
    omega
  refine ⟨by rw [maxUint64_sub_lt]; omega, ?_⟩
  by_cases hzero : product.toNat % 100 ≠ 0
  · rw [if_pos hzero] at h
    rw [if_pos (hrest.mpr hzero), if_pos hzero, toNat_add_of_fits, toNat_add_of_fits hfits, hquotient]
    · exact Nat.add_assoc _ _ _
    · rw [toNat_add_of_fits hfits, hquotient]
      exact Nat.add_assoc _ _ _ ▸ h
  · rw [if_neg fun h => hzero (hrest.mp h), if_neg hzero, toNat_add_of_fits hfits, hquotient]
    rfl

/-- A bump of nothing is made one, and the sum is checked. -/
theorem raised_by_one (b : Nat) (hbump : bump.toNat = b) :
    (if maxUint64 - oldFee < (if bump = 0 then 1 else bump) then none
      else some (oldFee + if bump = 0 then 1 else bump)) =
      if oldFee.toNat + max 1 b < 2 ^ 64 then some (UInt64.ofNat (oldFee.toNat + max 1 b)) else none := by
  have hraised : (if bump = 0 then 1 else bump).toNat = max 1 b := by
    by_cases hzero : bump = 0
    · rw [if_pos hzero, ← hbump, hzero]
      rfl
    · have hne : bump.toNat ≠ 0 := fun h => hzero (UInt64.toNat_inj.mp h)
      rw [if_neg hzero]
      omega
  generalize (if bump = 0 then 1 else bump) = raised at hraised ⊢
  rw [← hraised]
  by_cases hfits : oldFee.toNat + raised.toNat < 2 ^ 64
  · rw [if_pos hfits, if_neg (by rw [maxUint64_sub_lt]; omega), ← toNat_add_of_fits hfits, UInt64.ofNat_toNat]
  · rw [if_neg hfits, if_pos (by rw [maxUint64_sub_lt]; omega)]

/-- The value is exact, and an overflow is reported exactly when it does not fit. -/
theorem bumpedFeeThreshold_eq (hfee : oldFee ≠ 0) (hpercent : percent.toNat ≤ 100) :
    bumpedFeeThreshold oldFee percent =
      if bumpedFee oldFee.toNat percent.toNat < 2 ^ 64 then
        some (UInt64.ofNat (bumpedFee oldFee.toNat percent.toNat)) else none := by
  obtain ⟨hwhole, hremainder⟩ := @share_parts_fit oldFee percent hpercent
  have hshare : (oldFee / 100 * percent).toNat + (oldFee % 100 * percent).toNat ⌈/⌉ 100 < 2 ^ 64 := by
    rw [← share_eq hpercent]
    exact Nat.lt_of_le_of_lt (ceilDiv_share_le _ (by decide) hpercent) oldFee.toNat_lt
  obtain ⟨hadd, hround⟩ := rounded_up hshare
  unfold bumpedFeeThreshold
  rw [if_neg hfee]
  dsimp only
  rw [if_neg (not_quotient_lt hwhole), if_neg (not_quotient_lt hremainder), if_neg hadd, bumpedFee,
    share_eq hpercent]
  exact raised_by_one _ hround

theorem le_of_feeBumped {newFee : UInt64} (h : feeBumpedByPercent oldFee newFee percent = true)
    (hfee : oldFee ≠ 0) (hpercent : percent.toNat ≤ 100) :
    bumpedFee oldFee.toNat percent.toNat ≤ newFee.toNat := by
  unfold feeBumpedByPercent at h
  rw [bumpedFeeThreshold_eq hfee hpercent] at h
  by_cases hfits : bumpedFee oldFee.toNat percent.toNat < 2 ^ 64
  · rw [if_pos hfits, Option.any_some, decide_eq_true_iff, ge_iff_le, UInt64.le_iff_toNat_le,
      UInt64.toNat_ofNat_of_lt' hfits] at h
    exact h
  · rw [if_neg hfits, Option.any_none] at h
    cases h

end Threshold

end ChainLab.Node
