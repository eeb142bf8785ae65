import ChainLab.Abci.Evidence
import ChainLab.Lib.Ceiling

/-! The arithmetic of penalties: how much of a stake evidence takes, and when the validator leaves. -/

namespace ChainLab.Abci

open ChainLab.Lib ChainLab.State

/-! ### The amount -/

/-- The amount is the rounded share; the products and the sum on the way to it fit. -/
theorem slashAmountCeiling_exact (stake : UInt64) {basisPoints : UInt32} (hpoints : basisPoints.toNat ≤ 10000) :
    (slashAmountCeiling stake basisPoints).toNat = (stake.toNat * basisPoints.toNat) ⌈/⌉ 10000 := by
  have hstake := stake.toNat_lt
  have hsplit := ceilDiv_mul_split stake.toNat basisPoints.toNat (d := 10000) (by decide)
  have hshare := ceilDiv_share_le stake.toNat (d := 10000) (by decide) hpoints
  unfold slashAmountCeiling
  by_cases hzero : stake = 0 ∨ basisPoints = 0
  · rw [if_pos hzero]
    rcases hzero with rfl | rfl
    · simp
    · simp
  rw [if_neg hzero]
  dsimp only
  have hpointsNat : basisPoints.toUInt64.toNat = basisPoints.toNat := UInt32.toNat_toUInt64 _
  have hten : (10000 : UInt64).toNat = 10000 := rfl
  have hwhole : ((stake / 10000) * basisPoints.toUInt64).toNat = stake.toNat / 10000 * basisPoints.toNat := by
    rw [toNat_mul_of_fits, UInt64.toNat_div, hten, hpointsNat]
    rw [UInt64.toNat_div, hten, hpointsNat]
    omega
  have hremainder : ((stake % 10000) * basisPoints.toUInt64).toNat = stake.toNat % 10000 * basisPoints.toNat := by
    have hbound : stake.toNat % 10000 * basisPoints.toNat ≤ 10000 * 10000 :=
      Nat.mul_le_mul (Nat.mod_lt _ (by decide)).le hpoints
    rw [toNat_mul_of_fits, UInt64.toNat_mod, hten, hpointsNat]
    rw [UInt64.toNat_mod, hten, hpointsNat]
    omega
  have hquotient : ((stake % 10000) * basisPoints.toUInt64 / 10000).toNat =
      stake.toNat % 10000 * basisPoints.toNat / 10000 := by
    rw [UInt64.toNat_div, hremainder, hten]
  have hrest : (stake % 10000) * basisPoints.toUInt64 % 10000 ≠ 0 ↔
      stake.toNat % 10000 * basisPoints.toNat % 10000 ≠ 0 := by
    rw [Ne, ← UInt64.toNat_inj, UInt64.toNat_mod, hremainder, hten]
    rfl
  have hround := ceilDiv_eq_div_add (stake.toNat % 10000 * basisPoints.toNat) (d := 10000) (by decide)
  by_cases hexact : stake.toNat % 10000 * basisPoints.toNat % 10000 ≠ 0
  · rw [if_pos hexact] at hround
    have hnext : ((stake % 10000) * basisPoints.toUInt64 / 10000 + 1).toNat =
        (stake.toNat % 10000 * basisPoints.toNat) ⌈/⌉ 10000 := by
      have hone : (1 : UInt64).toNat = 1 := rfl
      have hfits : ((stake % 10000) * basisPoints.toUInt64 / 10000).toNat + (1 : UInt64).toNat < 2 ^ 64 := by
        rw [hquotient, hone]
        omega
      rw [toNat_add_of_fits hfits, hquotient, hround, hone]
    rw [if_pos (hrest.mpr hexact), toNat_add_of_fits (by omega), hwhole, hnext, hsplit]
  · rw [if_neg hexact, Nat.add_zero] at hround
    rw [if_neg (mt hrest.mp hexact), toNat_add_of_fits (by omega), hwhole, hquotient, ← hround, hsplit]

/-! ### The height -/

/-- The heights at which a validator observed at a height may leave: the first heights of epochs, at least two
blocks later. -/
def RemovalHeights (observedHeight epochLength : Int) : Set Int :=
  { height | observedHeight + 2 ≤ height ∧ epochLength ∣ height - 1 }

theorem isLeast_removalHeights (observedHeight : Int) {epochLength : Int} (hepoch : 0 < epochLength) :
    IsLeast (RemovalHeights observedHeight epochLength)
      ((observedHeight + 1 + (epochLength - 1)) / epochLength * epochLength + 1) := by
  have hfloor := Int.ediv_mul_le (observedHeight + 1 + (epochLength - 1)) hepoch.ne'
  have hnext := Int.lt_ediv_add_one_mul_self (observedHeight + 1 + (epochLength - 1)) hepoch
  rw [add_mul, one_mul] at hnext
  constructor
  · refine ⟨by omega, ?_⟩
    rw [add_sub_cancel_right]
    exact Int.dvd_mul_left _ _
  · rintro height ⟨hlate, epoch, hheight⟩
    have hmultiple : observedHeight + 1 ≤ epoch * epochLength := by
      rw [mul_comm]
      omega
    have hle : (observedHeight + 1 + (epochLength - 1)) / epochLength ≤ epoch := by
      rw [← Int.lt_add_one_iff, Int.ediv_lt_iff_lt_mul hepoch, add_mul, one_mul]
      omega
    have hscaled := mul_le_mul_of_nonneg_right hle hepoch.le
    rw [mul_comm epoch] at hscaled
    omega

theorem toInt_add_of_fits {a b : Int64} (hlow : -2 ^ 63 ≤ a.toInt + b.toInt) (hhigh : a.toInt + b.toInt < 2 ^ 63) :
    (a + b).toInt = a.toInt + b.toInt := by
  rw [Int64.toInt_add]
  exact Int.bmod_eq_of_le (by omega) (by omega)

theorem toInt_mul_of_fits {a b : Int64} (hlow : -2 ^ 63 ≤ a.toInt * b.toInt) (hhigh : a.toInt * b.toInt < 2 ^ 63) :
    (a * b).toInt = a.toInt * b.toInt := by
  rw [Int64.toInt_mul]
  exact Int.bmod_eq_of_le (by omega) (by omega)

private theorem ediv_round_up (n : Int) {d : Int} (hd : 0 < d) :
    (if n % d ≠ 0 then n / d + 1 else n / d) = (n + (d - 1)) / d := by
  have hsplit := Int.emod_add_mul_ediv n d
  have hnonneg := Int.emod_nonneg n hd.ne'
  have hlt := Int.emod_lt_of_pos n hd
  have hsum : n + (d - 1) = n % d + (d - 1) + d * (n / d) := by omega
  rw [hsum, Int.add_mul_ediv_left _ _ hd.ne']
  by_cases hzero : n % d = 0
  · have hnone : (d - 1) / d = 0 := Int.ediv_eq_zero_of_lt (by omega) (by omega)
    rw [if_neg (not_not.mpr hzero), hzero, zero_add, hnone, zero_add]
  · have hone : (n % d + (d - 1)) / d = 1 := by
      rw [← Int.sub_add_cancel (n % d + (d - 1)) d, Int.add_ediv_of_dvd_right (Int.dvd_refl d), Int.ediv_self hd.ne',
        Int.ediv_eq_zero_of_lt (by omega) (by omega), zero_add]
    rw [if_pos hzero, hone, add_comm]

/-- The epochs that the function counts, rounded up. -/
private theorem toInt_epoch {observedHeight epochLength : Int64} (hheight : 0 < observedHeight.toInt)
    (hfits : observedHeight.toInt + 2 < 2 ^ 63) (hepoch : 2 ≤ epochLength.toInt) :
    (if (observedHeight + 2 - 1) % epochLength ≠ 0 then (observedHeight + 2 - 1) / epochLength + 1
      else (observedHeight + 2 - 1) / epochLength).toInt =
      (observedHeight.toInt + 1 + (epochLength.toInt - 1)) / epochLength.toInt := by
  have htwo : (2 : Int64).toInt = 2 := rfl
  have hone : (1 : Int64).toInt = 1 := rfl
  have hzero : (0 : Int64).toInt = 0 := rfl
  have hoffset : (observedHeight + 2 - 1).toInt = observedHeight.toInt + 1 := by
    rw [Int64.toInt_sub, toInt_add_of_fits (by omega) (by omega), htwo, hone]
    rw [Int.bmod_eq_of_le (by omega) (by omega)]
    omega
  have hne : epochLength ≠ -1 := by
    rintro rfl
    exact absurd hepoch (by decide)
  have hquotient : ((observedHeight + 2 - 1) / epochLength).toInt =
      (observedHeight.toInt + 1) / epochLength.toInt := by
    rw [Int64.toInt_div_of_ne_right _ _ hne, hoffset, Int.tdiv_eq_ediv_of_nonneg (by omega)]
  have hrest : (observedHeight + 2 - 1) % epochLength ≠ 0 ↔ (observedHeight.toInt + 1) % epochLength.toInt ≠ 0 := by
    rw [Ne, ← Int64.toInt_inj, Int64.toInt_mod, hoffset, Int.tmod_eq_emod_of_nonneg (by omega), hzero]
  have hquotientBound : (observedHeight.toInt + 1) / epochLength.toInt ≤ observedHeight.toInt + 1 :=
    Int.ediv_le_self _ (by omega)
  have hquotientNonneg : 0 ≤ (observedHeight.toInt + 1) / epochLength.toInt :=
    Int.ediv_nonneg (by omega) (by omega)
  rw [← ediv_round_up (observedHeight.toInt + 1) (by omega : 0 < epochLength.toInt)]
  by_cases hexact : (observedHeight.toInt + 1) % epochLength.toInt ≠ 0
  · rw [if_pos (hrest.mpr hexact), if_pos hexact, toInt_add_of_fits (by omega) (by omega), hquotient, hone]
  · rw [if_neg (mt hrest.mp hexact), if_neg hexact, hquotient]

/-- Within the domain of heights, the function returns the least of the removal heights, or an error if it does
not fit. -/
theorem nextEpochRemovalHeight_of_pos {observedHeight epochLength : Int64} (hheight : 0 < observedHeight.toInt)
    (hfits : observedHeight.toInt + 2 < 2 ^ 63) (hepoch : 2 ≤ epochLength.toInt) {least : Int}
    (hleast : IsLeast (RemovalHeights observedHeight.toInt epochLength.toInt) least) :
    (2 ^ 63 ≤ least → ∃ err, nextEpochRemovalHeight observedHeight epochLength = .error err) ∧
    (least < 2 ^ 63 → nextEpochRemovalHeight observedHeight epochLength = .ok (Int64.ofInt least)) := by
  have hformula := hleast.unique (isLeast_removalHeights observedHeight.toInt (by omega : 0 < epochLength.toInt))
  have hepochs := toInt_epoch hheight hfits hepoch
  have hone : (1 : Int64).toInt = 1 := rfl
  have hdomain : ¬(observedHeight ≤ 0 ∨ observedHeight > maxInt64 - 2 ∨ epochLength < 2) := by
    have hmax : (maxInt64 - 2).toInt = 2 ^ 63 - 3 := rfl
    have hzero : (0 : Int64).toInt = 0 := rfl
    have htwo : (2 : Int64).toInt = 2 := rfl
    rw [gt_iff_lt, Int64.le_iff_toInt_le, Int64.lt_iff_toInt_lt, Int64.lt_iff_toInt_lt, hmax, hzero, htwo]
    omega
  unfold nextEpochRemovalHeight
  rw [refuseIf_ok (u := ()) |>.mpr hdomain]
  dsimp only [bind, Except.bind]
  generalize (if (observedHeight + 2 - 1) % epochLength ≠ 0 then (observedHeight + 2 - 1) / epochLength + 1
    else (observedHeight + 2 - 1) / epochLength) = epoch at hepochs ⊢
  rw [← hepochs] at hformula
  have hlimit : epoch > (maxInt64 - 1) / epochLength ↔ 2 ^ 63 ≤ least := by
    have hmax : (maxInt64 - 1).toInt = 2 ^ 63 - 2 := rfl
    have hne : epochLength ≠ -1 := by
      rintro rfl
      exact absurd hepoch (by decide)
    rw [gt_iff_lt, Int64.lt_iff_toInt_lt, Int64.toInt_div_of_ne_right _ _ hne, hmax,
      Int.tdiv_eq_ediv_of_nonneg (by omega), Int.ediv_lt_iff_lt_mul (by omega)]
    omega
  constructor
  · intro hover
    rw [refuseIf_err.mpr ⟨hlimit.mpr hover, rfl⟩]
    exact ⟨_, rfl⟩
  · intro hsmall
    have hlower : observedHeight.toInt + 2 ≤ least := hleast.1.1
    have hproduct : (epoch * epochLength).toInt = epoch.toInt * epochLength.toInt :=
      toInt_mul_of_fits (by omega) (by omega)
    have hresult : (epoch * epochLength + 1).toInt = least := by
      rw [toInt_add_of_fits (by omega) (by omega), hproduct, hone, ← hformula]
    rw [refuseIf_ok (u := ()) |>.mpr (mt hlimit.mp (by omega)), ← hresult, Int64.ofInt_toInt]
    rfl

/-- Outside the domain of heights there is an error only. -/
theorem nextEpochRemovalHeight_outside {observedHeight epochLength : Int64}
    (h : observedHeight.toInt ≤ 0 ∨ 2 ^ 63 ≤ observedHeight.toInt + 2) :
    ∃ err, nextEpochRemovalHeight observedHeight epochLength = .error err := by
  have hdomain : observedHeight ≤ 0 ∨ observedHeight > maxInt64 - 2 ∨ epochLength < 2 := by
    have hmax : (maxInt64 - 2).toInt = 2 ^ 63 - 3 := rfl
    have hzero : (0 : Int64).toInt = 0 := rfl
    rw [gt_iff_lt, Int64.le_iff_toInt_le, Int64.lt_iff_toInt_lt, hmax, hzero]
    omega
  unfold nextEpochRemovalHeight
  rw [refuseIf_err.mpr ⟨hdomain, rfl⟩]
  exact ⟨_, rfl⟩

/-- At height zero the function refuses, although the removal height 3 exists. -/
theorem nextEpochRemovalHeight_zero : (nextEpochRemovalHeight 0 2).isOk = false ∧
    IsLeast (RemovalHeights (Int64.toInt 0) (Int64.toInt 2)) 3 ∧ (0 : Int) + 2 < 2 ^ 63 ∧ (3 : Int) < 2 ^ 63 :=
  ⟨by decide, isLeast_removalHeights 0 (by decide), by decide, by decide⟩

/-- The amounts and the heights of penalties, for every stake, share, height and epoch length. -/
theorem penalties_exact (stake : UInt64) (basisPoints : UInt32) (hpoints : basisPoints.toNat ≤ 10000)
    (observedHeight epochLength : Int64) (hepoch : 2 ≤ epochLength.toInt) :
    ((slashAmountCeiling stake basisPoints).toNat = (stake.toNat * basisPoints.toNat) ⌈/⌉ 10000 ∧
      slashAmountCeiling stake basisPoints ≤ stake ∧
      stake.toNat / 10000 * basisPoints.toNat + (stake.toNat % 10000 * basisPoints.toNat) ⌈/⌉ 10000 < 2 ^ 64 ∧
      stake.toNat % 10000 * basisPoints.toNat < 2 ^ 64) ∧
    ∃ least, IsLeast (RemovalHeights observedHeight.toInt epochLength.toInt) least ∧
      (∀ height, nextEpochRemovalHeight observedHeight epochLength = .ok height → height.toInt = least) ∧
      ((∃ err, nextEpochRemovalHeight observedHeight epochLength = .error err) ↔
        observedHeight.toInt ≤ 0 ∨ 2 ^ 63 ≤ observedHeight.toInt + 2 ∨ 2 ^ 63 ≤ least) := by
  have hamount := slashAmountCeiling_exact stake hpoints
  have hshare := ceilDiv_share_le stake.toNat (d := 10000) (by decide) hpoints
  have hstake := stake.toNat_lt
  refine ⟨⟨hamount, by rw [UInt64.le_iff_toNat_le, hamount]; exact hshare, ?_, ?_⟩, ?_⟩
  · rw [ceilDiv_mul_split _ _ (by decide)]
    omega
  · have hbound : stake.toNat % 10000 * basisPoints.toNat ≤ 10000 * 10000 :=
      Nat.mul_le_mul (Nat.mod_lt _ (by decide)).le hpoints
    omega
  have hleast := isLeast_removalHeights observedHeight.toInt (by omega : 0 < epochLength.toInt)
  refine ⟨_, hleast, ?_⟩
  generalize (observedHeight.toInt + 1 + (epochLength.toInt - 1)) / epochLength.toInt * epochLength.toInt + 1 = least
    at hleast ⊢
  have hlate : observedHeight.toInt + 2 ≤ least := hleast.1.1
  by_cases hdomain : observedHeight.toInt ≤ 0 ∨ 2 ^ 63 ≤ observedHeight.toInt + 2
  · obtain ⟨err, herr⟩ := @nextEpochRemovalHeight_outside _ epochLength hdomain
    refine ⟨fun height hok => ?_, fun _ => by omega, fun _ => ⟨err, herr⟩⟩
    rw [herr] at hok
    cases hok
  obtain ⟨hover, hfits⟩ := nextEpochRemovalHeight_of_pos (by omega) (by omega) hepoch hleast
  by_cases hsmall : least < 2 ^ 63
  · have hvalue : (Int64.ofInt least).toInt = least := Int64.toInt_ofInt_of_le (by omega) (by omega)
    refine ⟨fun height hok => ?_, ?_, fun hcase => by omega⟩
    · rw [hfits hsmall] at hok
      cases hok
      exact hvalue
    · rintro ⟨err, herr⟩
      rw [hfits hsmall] at herr
      cases herr
  · obtain ⟨err, herr⟩ := hover (by omega)
    refine ⟨fun height hok => ?_, fun _ => by omega, fun _ => ⟨err, herr⟩⟩
    rw [herr] at hok
    cases hok

/-- A third of a stake of 100, and a removal in epochs of five blocks. -/
theorem penalties_exact_small : (slashAmountCeiling 100 3333).toNat = (100 * 3333) ⌈/⌉ 10000 ∧
    ∃ least, IsLeast (RemovalHeights (Int64.toInt 7) (Int64.toInt 5)) least ∧
      ∀ height, nextEpochRemovalHeight 7 5 = .ok height → height.toInt = least := by
  obtain ⟨⟨hamount, -⟩, least, hleast, hheight, -⟩ := penalties_exact 100 3333 (by decide) 7 5 (by decide)
  exact ⟨hamount, least, hleast, hheight⟩

end ChainLab.Abci
