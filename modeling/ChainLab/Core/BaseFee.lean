import ChainLab.Core.FeeMarket

/-! The base fee update in exact integers: the two-word divisions neither panic nor lose digits, and the fee moves
by bounded steps that follow the gas used. -/

namespace ChainLab.Core

open ChainLab.Lib ChainLab.Types

/-! ### The update with its panics -/

/-- `x / y`, which panics on a zero divisor. -/
def checkedDiv (x y : UInt64) : Option UInt64 := if y = 0 then none else some (x / y)

/-- `x % y`, which panics on a zero divisor. -/
def checkedMod (x y : UInt64) : Option UInt64 := if y = 0 then none else some (x % y)

/-- `bits.Div64`, which panics on a zero divisor and on a quotient of more than one word. -/
def checkedDiv64 (hi lo y : UInt64) : Option UInt64 := if y = 0 ∨ y ≤ hi then none else some (div64 hi lo y)

/-- `BaseFeeChange`, with no value where the code panics. -/
def checkedBaseFeeChange (baseFee gasDelta gasTarget denominator : UInt64) : Option UInt64 :=
  if gasTarget = 0 ∨ denominator = 0 ∨ baseFee = 0 ∨ gasDelta = 0 then some 0
  else do
    let product := mul64 baseFee gasDelta
    let quotientHigh ← checkedDiv product.1 gasTarget
    let remainderHigh ← checkedMod product.1 gasTarget
    let quotientLow ← checkedDiv64 remainderHigh product.2 gasTarget
    let resultHigh ← checkedDiv quotientHigh denominator
    let restHigh ← checkedMod quotientHigh denominator
    let resultLow ← checkedDiv64 restHigh quotientLow denominator
    return if resultHigh ≠ 0 then maxUint64 else resultLow

/-- `NextBaseFee`, with no value where the code panics. -/
def checkedNextBaseFee (parentBaseFee parentGasUsed gasLimit : UInt64) : Option UInt64 :=
  let parentBaseFee := if parentBaseFee = 0 then initialBaseFeePerGas else parentBaseFee
  let gasLimit := if gasLimit = 0 then defaultBlockGasLimit else gasLimit
  let target := if gasLimit / 2 = 0 then 1 else gasLimit / 2
  if parentGasUsed = target then some parentBaseFee
  else if parentGasUsed > target then do
    let change ← checkedBaseFeeChange parentBaseFee (parentGasUsed - target) target baseFeeChangeDenominator
    let increase := if change = 0 then 1 else change
    return if maxUint64 - parentBaseFee < increase then maxUint64 else parentBaseFee + increase
  else do
    let decrease ← checkedBaseFeeChange parentBaseFee (target - parentGasUsed) target baseFeeChangeDenominator
    return if decrease ≥ parentBaseFee then initialBaseFeePerGas
      else if parentBaseFee - decrease < initialBaseFeePerGas then initialBaseFeePerGas
      else parentBaseFee - decrease

theorem mod_lt_of_ne_zero (x : UInt64) {y : UInt64} (h : y ≠ 0) : ¬(y = 0 ∨ y ≤ x % y) := by
  have hpos : 0 < y.toNat := Nat.pos_of_ne_zero fun hzero => h (UInt64.toNat_inj.mp hzero)
  rintro (hzero | hle)
  · exact h hzero
  · rw [UInt64.le_iff_toNat_le, UInt64.toNat_mod] at hle
    have := Nat.mod_lt x.toNat hpos
    omega

/-- Both divisors are checked first, and a remainder is below its divisor. -/
theorem checkedBaseFeeChange_eq (baseFee gasDelta gasTarget denominator : UInt64) :
    checkedBaseFeeChange baseFee gasDelta gasTarget denominator =
      some (baseFeeChange baseFee gasDelta gasTarget denominator) := by
  unfold checkedBaseFeeChange baseFeeChange
  split
  · rfl
  · next hargs =>
    rw [not_or, not_or] at hargs
    obtain ⟨htarget, hdenominator, -⟩ := hargs
    simp only [checkedDiv, checkedMod, checkedDiv64, if_neg htarget, if_neg hdenominator, Option.bind_eq_bind,
      Option.bind_some, if_neg (mod_lt_of_ne_zero _ htarget), if_neg (mod_lt_of_ne_zero _ hdenominator),
      Option.pure_def]

theorem checkedNextBaseFee_eq (parentBaseFee parentGasUsed gasLimit : UInt64) :
    checkedNextBaseFee parentBaseFee parentGasUsed gasLimit =
      some (nextBaseFee parentBaseFee parentGasUsed gasLimit) := by
  unfold checkedNextBaseFee nextBaseFee
  extract_lets fee limit target
  by_cases hsame : parentGasUsed = target
  · rw [if_pos hsame, if_pos hsame]
  · rw [if_neg hsame, if_neg hsame]
    by_cases habove : parentGasUsed > target
    · rw [if_pos habove, if_pos habove, checkedBaseFeeChange_eq, Option.bind_eq_bind, Option.bind_some, Option.pure_def]
    · rw [if_neg habove, if_neg habove, checkedBaseFeeChange_eq, Option.bind_eq_bind, Option.bind_some, Option.pure_def]

/-! ### The change of the fee -/

/-- Long division of two words by one. -/
theorem two_word_div (high low word : Nat) {y : Nat} (hy : 0 < y) :
    (high * word + low) / y = high / y * word + (high % y * word + low) / y := by
  have hsplit : high * word + low = y * (high / y * word) + (high % y * word + low) := by
    calc high * word + low = (y * (high / y) + high % y) * word + low := by rw [Nat.div_add_mod]
      _ = y * (high / y * word) + (high % y * word + low) := by ring
  rw [hsplit, Nat.mul_add_div hy]

/-- The low digit of such a division is one word. -/
theorem low_digit_lt {high low word y : Nat} (hy : 0 < y) (hlow : low < word) :
    (high % y * word + low) / y < word := by
  have hrest : high % y + 1 ≤ y := Nat.mod_lt high hy
  refine Nat.div_lt_of_lt_mul ?_
  calc high % y * word + low < (high % y + 1) * word := by rw [Nat.add_mul, Nat.one_mul]; omega
    _ ≤ y * word := Nat.mul_le_mul_right word hrest

theorem toNat_div64 {high low y : UInt64} (hy : 0 < y.toNat) :
    (div64 (high % y) low y).toNat = (high.toNat % y.toNat * 2 ^ 64 + low.toNat) / y.toNat := by
  rw [div64, UInt64.toNat_mod]
  exact UInt64.toNat_ofNat_of_lt' (low_digit_lt hy low.toNat_lt)

theorem mul64_value (x y : UInt64) : (mul64 x y).1.toNat * 2 ^ 64 + (mul64 x y).2.toNat = x.toNat * y.toNat := by
  have hhigh : x.toNat * y.toNat / 2 ^ 64 < 2 ^ 64 := by
    refine Nat.div_lt_of_lt_mul ?_
    exact Nat.mul_lt_mul'' x.toNat_lt y.toNat_lt
  have hfirst : (mul64 x y).1.toNat = x.toNat * y.toNat / 2 ^ 64 := UInt64.toNat_ofNat_of_lt' hhigh
  have hsecond : (mul64 x y).2.toNat = x.toNat * y.toNat % 2 ^ 64 := UInt64.toNat_mul x y
  rw [hfirst, hsecond]
  exact Nat.div_add_mod' _ _

/-- The two digits of a product divided twice. -/
theorem change_digits (product : UInt64 × UInt64) {target denominator : UInt64} (ht : 0 < target.toNat)
    (hd : 0 < denominator.toNat) :
    (product.1.toNat * 2 ^ 64 + product.2.toNat) / target.toNat / denominator.toNat =
      (product.1 / target / denominator).toNat * 2 ^ 64 +
        (div64 (product.1 / target % denominator) (div64 (product.1 % target) product.2 target) denominator).toNat := by
  rw [two_word_div _ _ _ ht, ← toNat_div64 ht, ← UInt64.toNat_div, two_word_div _ _ _ hd, ← toNat_div64 hd,
    ← UInt64.toNat_div]

theorem toNat_pos_of_ne_zero {x : UInt64} (h : x ≠ 0) : 0 < x.toNat :=
  Nat.pos_of_ne_zero fun hzero => h (UInt64.toNat_inj.mp hzero)

theorem quotient_eq_zero {a b t d : UInt64} (h : t = 0 ∨ d = 0 ∨ a = 0 ∨ b = 0) :
    a.toNat * b.toNat / t.toNat / d.toNat = 0 := by
  have hzero : (0 : UInt64).toNat = 0 := rfl
  rcases h with rfl | rfl | rfl | rfl
  · rw [hzero, Nat.div_zero, Nat.zero_div]
  · rw [hzero, Nat.div_zero]
  · rw [hzero, Nat.zero_mul, Nat.zero_div, Nat.zero_div]
  · rw [hzero, Nat.mul_zero, Nat.zero_div, Nat.zero_div]

/-- The change is the exact quotient, saturated. -/
theorem toNat_baseFeeChange (baseFee gasDelta gasTarget denominator : UInt64) :
    (baseFeeChange baseFee gasDelta gasTarget denominator).toNat =
      min (baseFee.toNat * gasDelta.toNat / gasTarget.toNat / denominator.toNat) (2 ^ 64 - 1) := by
  unfold baseFeeChange
  by_cases hargs : gasTarget = 0 ∨ denominator = 0 ∨ baseFee = 0 ∨ gasDelta = 0
  · rw [if_pos hargs, quotient_eq_zero hargs, Nat.zero_min]
    rfl
  · rw [if_neg hargs]
    rw [not_or, not_or] at hargs
    have ht := toNat_pos_of_ne_zero hargs.1
    have hd := toNat_pos_of_ne_zero hargs.2.1
    rw [← mul64_value baseFee gasDelta, change_digits _ ht hd]
    extract_lets product quotientHigh quotientLow resultLow
    have hbound := resultLow.toNat_lt
    change _ = min ((quotientHigh / denominator).toNat * 2 ^ 64 + resultLow.toNat) (2 ^ 64 - 1)
    by_cases hhigh : quotientHigh / denominator ≠ 0
    · rw [if_pos hhigh, toNat_maxUint64]
      have hone := toNat_pos_of_ne_zero hhigh
      refine (Nat.min_eq_right ?_).symm
      have : 1 * 2 ^ 64 ≤ (quotientHigh / denominator).toNat * 2 ^ 64 := Nat.mul_le_mul_right _ hone
      omega
    · rw [if_neg hhigh]
      rw [not_not] at hhigh
      have hzero : (quotientHigh / denominator).toNat = 0 := by
        rw [hhigh]
        rfl
      rw [hzero, Nat.zero_mul, Nat.zero_add]
      refine (Nat.min_eq_left ?_).symm
      omega

/-! ### The next fee -/

/-- The fee the update starts from. -/
def effectiveBaseFee (parentBaseFee : UInt64) : Nat :=
  (if parentBaseFee = 0 then initialBaseFeePerGas else parentBaseFee).toNat

/-- The gas at which the fee stays: half the limit, and at least one. -/
def gasTarget (gasLimit : UInt64) : Nat :=
  max 1 ((if gasLimit = 0 then defaultBlockGasLimit else gasLimit).toNat / 2)

/-- The eighth part of what `delta` out of `target` is of a fee. -/
def feeStep (fee delta target : Nat) : Nat := fee * delta / target / 8

/-- The next fee in exact integers: up to the target the fee is lowered by a step, above it raised by at least one,
within 64 bits. -/
def nextFee (fee target used : Nat) : Nat :=
  if used ≤ target then fee - feeStep fee (target - used) target
  else min (fee + max 1 (feeStep fee (used - target) target)) (2 ^ 64 - 1)

theorem one_le_effectiveBaseFee (parentBaseFee : UInt64) : 1 ≤ effectiveBaseFee parentBaseFee := by
  unfold effectiveBaseFee
  split
  · exact Nat.le_refl 1
  · next h => exact toNat_pos_of_ne_zero h

theorem effectiveBaseFee_lt (parentBaseFee : UInt64) : effectiveBaseFee parentBaseFee < 2 ^ 64 :=
  UInt64.toNat_lt _

theorem one_le_gasTarget (gasLimit : UInt64) : 1 ≤ gasTarget gasLimit := Nat.le_max_left _ _

section Steps

variable {fee delta target : Nat}

theorem feeStep_mono {more : Nat} (h : delta ≤ more) : feeStep fee delta target ≤ feeStep fee more target :=
  Nat.div_le_div_right (Nat.div_le_div_right (Nat.mul_le_mul_left fee h))

/-- Over at most the whole target the step is at most an eighth. -/
theorem feeStep_le (htarget : 1 ≤ target) (h : delta ≤ target) : feeStep fee delta target ≤ fee / 8 := by
  refine Nat.div_le_div_right ?_
  calc fee * delta / target ≤ fee * target / target := Nat.div_le_div_right (Nat.mul_le_mul_left fee h)
    _ = fee := Nat.mul_div_cancel fee htarget

theorem feeStep_zero (fee target : Nat) : feeStep fee 0 target = 0 := by simp [feeStep]

end Steps

section NextFee

variable {fee target used : Nat}

theorem nextFee_target (fee target : Nat) : nextFee fee target target = fee := by
  rw [nextFee, if_pos (Nat.le_refl target), Nat.sub_self, feeStep_zero, Nat.sub_zero]

theorem nextFee_below_le (h : used ≤ target) : nextFee fee target used ≤ fee := by
  rw [nextFee, if_pos h]
  exact Nat.sub_le _ _

theorem nextFee_above_gt (hlast : fee < 2 ^ 64 - 1) (h : target < used) : fee < nextFee fee target used := by
  rw [nextFee, if_neg (Nat.not_le_of_lt h), lt_min_iff]
  have := Nat.le_max_left 1 (feeStep fee (used - target) target)
  exact ⟨by omega, hlast⟩

theorem le_nextFee_above (hfee : fee < 2 ^ 64) (h : target < used) : fee ≤ nextFee fee target used := by
  rw [nextFee, if_neg (Nat.not_le_of_lt h), le_min_iff]
  exact ⟨Nat.le_add_right _ _, by omega⟩

theorem one_le_nextFee (hone : 1 ≤ fee) (hfee : fee < 2 ^ 64) (htarget : 1 ≤ target) :
    1 ≤ nextFee fee target used := by
  by_cases h : used ≤ target
  · have hstep : feeStep fee (target - used) target ≤ fee / 8 := feeStep_le htarget (Nat.sub_le _ _)
    rw [nextFee, if_pos h]
    omega
  · exact Nat.le_trans hone (le_nextFee_above hfee (Nat.lt_of_not_le h))

/-- More gas never lowers the next fee; across the target it passes through the fee itself. -/
theorem nextFee_mono {more : Nat} (hfee : fee < 2 ^ 64) (h : used ≤ more) :
    nextFee fee target used ≤ nextFee fee target more := by
  by_cases hmore : more ≤ target
  · rw [nextFee, nextFee, if_pos hmore, if_pos (Nat.le_trans h hmore)]
    exact Nat.sub_le_sub_left (feeStep_mono (Nat.sub_le_sub_left h target)) fee
  · by_cases hused : used ≤ target
    · exact Nat.le_trans (nextFee_below_le hused) (le_nextFee_above hfee (Nat.lt_of_not_le hmore))
    · rw [nextFee, nextFee, if_neg hmore, if_neg hused]
      have hstep : feeStep fee (used - target) target ≤ feeStep fee (more - target) target :=
        feeStep_mono (Nat.sub_le_sub_right h target)
      exact min_le_min_right _ (Nat.add_le_add_left (max_le_max_left 1 hstep) fee)

/-- Up to twice the target the fee moves by at most an eighth, or by one. -/
theorem nextFee_near (hfee : fee < 2 ^ 64) (htarget : 1 ≤ target) (h : used ≤ 2 * target) :
    nextFee fee target used ≤ fee + max 1 (fee / 8) ∧ fee ≤ nextFee fee target used + max 1 (fee / 8) := by
  by_cases hused : used ≤ target
  · have hstep : feeStep fee (target - used) target ≤ fee / 8 := feeStep_le htarget (Nat.sub_le _ _)
    rw [nextFee, if_pos hused]
    omega
  · have hstep : feeStep fee (used - target) target ≤ fee / 8 := feeStep_le htarget (by omega)
    rw [nextFee, if_neg hused]
    omega

end NextFee

theorem toNat_target (gasLimit : UInt64) :
    (if (if gasLimit = 0 then defaultBlockGasLimit else gasLimit) / 2 = 0 then 1
      else (if gasLimit = 0 then defaultBlockGasLimit else gasLimit) / 2).toNat = gasTarget gasLimit := by
  have hhalf : ((if gasLimit = 0 then defaultBlockGasLimit else gasLimit) / 2).toNat =
      (if gasLimit = 0 then defaultBlockGasLimit else gasLimit).toNat / 2 := by
    rw [UInt64.toNat_div]
    rfl
  have hone : (1 : UInt64).toNat = 1 := rfl
  unfold gasTarget
  rw [← hhalf]
  by_cases hzero : (if gasLimit = 0 then defaultBlockGasLimit else gasLimit) / 2 = 0
  · rw [if_pos hzero, hzero, hone]
    rfl
  · rw [if_neg hzero]
    exact (Nat.max_eq_right (toNat_pos_of_ne_zero hzero)).symm

/-- The step that `BaseFeeChange` computes, before it is added or subtracted. -/
theorem toNat_change (fee delta target : UInt64) :
    (baseFeeChange fee delta target baseFeeChangeDenominator).toNat =
      min (feeStep fee.toNat delta.toNat target.toNat) (2 ^ 64 - 1) :=
  toNat_baseFeeChange fee delta target baseFeeChangeDenominator

/-- The raised fee saturates where the sum does not fit. -/
theorem toNat_raised (fee change : UInt64) :
    (if maxUint64 - fee < (if change = 0 then 1 else change) then maxUint64
      else fee + (if change = 0 then 1 else change)).toNat = min (fee.toNat + max 1 change.toNat) (2 ^ 64 - 1) := by
  have hincrease : (if change = 0 then 1 else change).toNat = max 1 change.toNat := by
    split
    · next hzero => rw [hzero]; rfl
    · next hne => exact (Nat.max_eq_right (toNat_pos_of_ne_zero hne)).symm
  generalize (if change = 0 then 1 else change) = increase at hincrease ⊢
  rw [← hincrease]
  by_cases hover : maxUint64 - fee < increase
  · rw [if_pos hover, toNat_maxUint64]
    rw [maxUint64_sub_lt] at hover
    omega
  · rw [if_neg hover]
    rw [maxUint64_sub_lt] at hover
    rw [toNat_add_of_fits (by omega)]
    omega

/-- A step of less than the fee leaves at least one, so neither floor is reached. -/
theorem toNat_lowered {fee change : UInt64} (h : change.toNat < fee.toNat) :
    (if change ≥ fee then initialBaseFeePerGas
      else if fee - change < initialBaseFeePerGas then initialBaseFeePerGas else fee - change).toNat =
        fee.toNat - change.toNat := by
  have hless : ¬change ≥ fee := by
    rw [ge_iff_le, UInt64.le_iff_toNat_le]
    omega
  have hleft := toNat_sub_of_covers (Nat.le_of_lt h)
  have hinitial : initialBaseFeePerGas.toNat = 1 := rfl
  have hfloor : ¬fee - change < initialBaseFeePerGas := by
    rw [UInt64.lt_iff_toNat_lt, hleft, hinitial]
    omega
  rw [if_neg hless, if_neg hfloor, hleft]

/-- The update never wraps around. -/
theorem toNat_nextBaseFee (parentBaseFee parentGasUsed gasLimit : UInt64) :
    (nextBaseFee parentBaseFee parentGasUsed gasLimit).toNat =
      nextFee (effectiveBaseFee parentBaseFee) (gasTarget gasLimit) parentGasUsed.toNat := by
  have htarget := toNat_target gasLimit
  have hone := one_le_effectiveBaseFee parentBaseFee
  have hlast := effectiveBaseFee_lt parentBaseFee
  have hpositive := one_le_gasTarget gasLimit
  unfold nextBaseFee
  extract_lets fee limit target
  change 1 ≤ fee.toNat at hone
  change fee.toNat < 2 ^ 64 at hlast
  change target.toNat = _ at htarget
  change _ = nextFee fee.toNat _ _
  rw [← htarget] at hpositive ⊢
  by_cases hsame : parentGasUsed = target
  · rw [if_pos hsame, hsame, nextFee_target]
  · rw [if_neg hsame]
    by_cases habove : parentGasUsed > target
    · rw [if_pos habove]
      rw [gt_iff_lt, UInt64.lt_iff_toNat_lt] at habove
      rw [toNat_raised, toNat_change, toNat_sub_of_covers (Nat.le_of_lt habove), nextFee,
        if_neg (Nat.not_le_of_lt habove)]
      omega
    · rw [if_neg habove]
      rw [gt_iff_lt, UInt64.lt_iff_toNat_lt, Nat.not_lt] at habove
      have hstep : feeStep fee.toNat (target.toNat - parentGasUsed.toNat) target.toNat ≤ fee.toNat / 8 :=
        feeStep_le hpositive (Nat.sub_le _ _)
      have hchange := toNat_change fee (target - parentGasUsed) target
      rw [toNat_sub_of_covers habove, Nat.min_eq_left (by omega)] at hchange
      have hlow : (baseFeeChange fee (target - parentGasUsed) target baseFeeChangeDenominator).toNat < fee.toNat := by
        omega
      rw [nextFee, if_pos habove, ← hchange]
      exact toNat_lowered hlow

/-- The base fee update. `BaseFeeChange` never panics and is the exact quotient, saturated. `NextBaseFee` never panics
and never wraps; its fee is at least the initial one and follows the gas used; at the target it stays, above the
target it rises while it can, and up to twice the target it moves by at most an eighth, or by one. -/
theorem baseFee_update :
    (∀ baseFee gasDelta target denominator : UInt64,
      checkedBaseFeeChange baseFee gasDelta target denominator =
        some (baseFeeChange baseFee gasDelta target denominator) ∧
      (baseFeeChange baseFee gasDelta target denominator).toNat =
        min (baseFee.toNat * gasDelta.toNat / target.toNat / denominator.toNat) (2 ^ 64 - 1) ∧
      (target = 0 ∨ denominator = 0 ∨ baseFee = 0 ∨ gasDelta = 0 →
        baseFeeChange baseFee gasDelta target denominator = 0)) ∧
    (∀ parentBaseFee gasUsed gasLimit : UInt64,
      checkedNextBaseFee parentBaseFee gasUsed gasLimit = some (nextBaseFee parentBaseFee gasUsed gasLimit) ∧
      (nextBaseFee parentBaseFee gasUsed gasLimit).toNat =
        nextFee (effectiveBaseFee parentBaseFee) (gasTarget gasLimit) gasUsed.toNat ∧
      initialBaseFeePerGas ≤ nextBaseFee parentBaseFee gasUsed gasLimit ∧
      (∀ more, gasUsed ≤ more →
        nextBaseFee parentBaseFee gasUsed gasLimit ≤ nextBaseFee parentBaseFee more gasLimit) ∧
      (gasUsed.toNat = gasTarget gasLimit →
        (nextBaseFee parentBaseFee gasUsed gasLimit).toNat = effectiveBaseFee parentBaseFee) ∧
      (gasTarget gasLimit < gasUsed.toNat → effectiveBaseFee parentBaseFee ≠ 2 ^ 64 - 1 →
        effectiveBaseFee parentBaseFee < (nextBaseFee parentBaseFee gasUsed gasLimit).toNat) ∧
      (gasUsed.toNat ≤ 2 * gasTarget gasLimit →
        (nextBaseFee parentBaseFee gasUsed gasLimit).toNat ≤
          effectiveBaseFee parentBaseFee + max 1 (effectiveBaseFee parentBaseFee / 8) ∧
        effectiveBaseFee parentBaseFee ≤ (nextBaseFee parentBaseFee gasUsed gasLimit).toNat +
          max 1 (effectiveBaseFee parentBaseFee / 8))) := by
  constructor
  · intro baseFee gasDelta target denominator
    refine ⟨checkedBaseFeeChange_eq _ _ _ _, toNat_baseFeeChange _ _ _ _, fun hzero => ?_⟩
    rw [← UInt64.toNat_inj, toNat_baseFeeChange, quotient_eq_zero hzero, Nat.zero_min]
    rfl
  · intro parentBaseFee gasUsed gasLimit
    have hone := one_le_effectiveBaseFee parentBaseFee
    have hlast := effectiveBaseFee_lt parentBaseFee
    have htarget := one_le_gasTarget gasLimit
    have hinitial : initialBaseFeePerGas.toNat = 1 := rfl
    have hvalue := toNat_nextBaseFee parentBaseFee gasUsed gasLimit
    refine ⟨checkedNextBaseFee_eq _ _ _, hvalue, ?_, fun more hmore => ?_, fun hsame => ?_, fun habove hnot => ?_,
      fun hnear => ?_⟩
    · rw [UInt64.le_iff_toNat_le, hvalue, hinitial]
      exact one_le_nextFee hone hlast htarget
    · rw [UInt64.le_iff_toNat_le] at hmore
      rw [UInt64.le_iff_toNat_le, hvalue, toNat_nextBaseFee]
      exact nextFee_mono hlast hmore
    · rw [hvalue, hsame, nextFee_target]
    · rw [hvalue]
      exact nextFee_above_gt (by omega) habove
    · rw [hvalue]
      exact nextFee_near hlast htarget hnear

end ChainLab.Core
