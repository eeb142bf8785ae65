import Mathlib.Algebra.Order.Floor.Div

/-! Rounding up a product by its quotient and its remainder, so that no intermediate value exceeds what is
rounded by much. -/

namespace ChainLab.Lib

theorem ceilDiv_eq_div_add (b : Nat) {d : Nat} (hd : 0 < d) : b ⌈/⌉ d = b / d + if b % d ≠ 0 then 1 else 0 := by
  have hsplit := Nat.div_add_mod b d
  have hmod := Nat.mod_lt b hd
  rw [Nat.ceilDiv_eq_add_pred_div]
  have hsum : b + d - 1 = (b % d + d - 1) + d * (b / d) := by omega
  rw [hsum, Nat.add_mul_div_left _ _ hd]
  by_cases hzero : b % d = 0
  · rw [hzero, if_neg (not_not.mpr rfl), Nat.div_eq_of_lt (by omega), Nat.zero_add, Nat.add_zero]
  · have hone : (b % d + d - 1) / d = 1 := Nat.div_eq_of_lt_le (by omega) (by omega)
    rw [if_pos hzero, hone, Nat.add_comm]

/-- The whole part is scaled exactly, so only the remainder is rounded. -/
theorem ceilDiv_mul_split (n k : Nat) {d : Nat} (hd : 0 < d) :
    n / d * k + (n % d * k) ⌈/⌉ d = (n * k) ⌈/⌉ d := by
  have hproduct : n * k = n % d * k + d * (n / d * k) := by
    conv_lhs => rw [← Nat.mod_add_div n d]
    rw [Nat.add_mul, Nat.mul_assoc]
  have hsum : n % d * k + d * (n / d * k) + d - 1 = (n % d * k + d - 1) + d * (n / d * k) := by omega
  rw [hproduct, Nat.ceilDiv_eq_add_pred_div, Nat.ceilDiv_eq_add_pred_div, hsum, Nat.add_mul_div_left _ _ hd,
    Nat.add_comm]

/-- A share of at most the whole, rounded up, is at most the whole. -/
theorem ceilDiv_share_le (n : Nat) {k d : Nat} (hd : 0 < d) (hk : k ≤ d) : (n * k) ⌈/⌉ d ≤ n := by
  rw [ceilDiv_le_iff_le_mul hd, Nat.mul_comm d]
  exact Nat.mul_le_mul_left n hk

end ChainLab.Lib
