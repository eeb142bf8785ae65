import Mathlib

/-! Early returns with an error value, and the overflow guards of unsigned 64-bit arithmetic. -/

namespace ChainLab.Lib

section Outcome

variable {ε ε' α β : Type}

/-- `if cond { return err }`. -/
def refuseIf (cond : Prop) [Decidable cond] (err : ε) : Except ε Unit :=
  if cond then .error err else .ok ()

/-- A comma-ok read whose missing case returns `err`. -/
def require (value : Option α) (err : ε) : Except ε α :=
  value.elim (.error err) .ok

/-- `if cond { if err := check; err != nil { return err } }`. -/
def checkWhen (cond : Prop) [Decidable cond] (check : Except ε Unit) : Except ε Unit :=
  if cond then check else .ok ()

@[simp] theorem checkWhen_ok {cond : Prop} {_ : Decidable cond} {check : Except ε Unit} {u : Unit} :
    checkWhen cond check = .ok u ↔ (cond → check = .ok u) := by
  unfold checkWhen; split <;> simp_all

@[simp] theorem refuseIf_ok {cond : Prop} {_ : Decidable cond} {err : ε} {u : Unit} :
    refuseIf cond err = .ok u ↔ ¬cond := by
  unfold refuseIf; split <;> simp_all

@[simp] theorem refuseIf_err {cond : Prop} {_ : Decidable cond} {err e : ε} :
    refuseIf cond err = .error e ↔ cond ∧ err = e := by
  unfold refuseIf; split <;> simp_all

@[simp] theorem require_ok {value : Option α} {err : ε} {a : α} :
    require value err = .ok a ↔ value = some a := by
  cases value <;> simp [require]

@[simp] theorem require_err {value : Option α} {err e : ε} :
    require value err = .error e ↔ value = none ∧ err = e := by
  cases value <;> simp [require]

@[simp] theorem pure_eq_ok (a : α) : (pure a : Except ε α) = .ok a := rfl

@[simp] theorem bind_ok {x : Except ε α} {f : α → Except ε β} {b : β} :
    (x >>= f) = .ok b ↔ ∃ a, x = .ok a ∧ f a = .ok b := by
  cases x <;> simp [bind, Except.bind]

@[simp] theorem bind_err {x : Except ε α} {f : α → Except ε β} {e : ε} :
    (x >>= f) = .error e ↔ x = .error e ∨ ∃ a, x = .ok a ∧ f a = .error e := by
  cases x <;> simp [bind, Except.bind]

@[simp] theorem mapError_ok {outcome : Except ε α} {wrap : ε → ε'} {value : α} :
    outcome.mapError wrap = .ok value ↔ outcome = .ok value := by
  cases outcome with
  | ok _ => simp [Except.mapError]
  | error _ => simp [Except.mapError]

theorem exists_error_iff {x : Except ε α} : (∃ err, x = .error err) ↔ ¬∃ v, x = .ok v := by
  cases x <;> simp

theorem eq_ok_getD {x : Except ε α} (default : α) (h : x.isOk = true) : x = .ok (x.toOption.getD default) := by
  cases x with
  | ok value => rfl
  | error err => cases h

/-- A loop of checks passes exactly when every round passes. -/
theorem forM_ok {check : α → Except ε Unit} {items : List α} {u : Unit} :
    items.forM check = .ok u ↔ ∀ item ∈ items, check item = .ok () := by
  induction items with
  | nil => exact ⟨fun _ _ hitem => (nomatch hitem), fun _ => rfl⟩
  | cons item rest ih =>
    have hcons : (item :: rest).forM check = check item >>= fun _ => rest.forM check := rfl
    rw [hcons, bind_ok, List.forall_mem_cons, ← ih]
    exact ⟨fun ⟨_, hfirst, hrest⟩ => ⟨hfirst, hrest⟩, fun ⟨hfirst, hrest⟩ => ⟨(), hfirst, hrest⟩⟩

end Outcome

section Arithmetic

/-- `math.MaxUint64`. -/
def maxUint64 : UInt64 := 0xFFFFFFFFFFFFFFFF

theorem toNat_maxUint64 : maxUint64.toNat = 2 ^ 64 - 1 := rfl

theorem toNat_maxUint64_sub (a : UInt64) : (maxUint64 - a).toNat = 2 ^ 64 - 1 - a.toNat := by
  have h : a ≤ maxUint64 := by
    rw [UInt64.le_iff_toNat_le, toNat_maxUint64]
    have := a.toNat_lt
    omega
  rw [UInt64.toNat_sub_of_le _ _ h, toNat_maxUint64]

theorem maxUint64_sub_lt {a b : UInt64} : maxUint64 - a < b ↔ 2 ^ 64 ≤ a.toNat + b.toNat := by
  rw [UInt64.lt_iff_toNat_lt, toNat_maxUint64_sub]
  have := a.toNat_lt
  omega

theorem toNat_add_of_fits {a b : UInt64} (h : a.toNat + b.toNat < 2 ^ 64) :
    (a + b).toNat = a.toNat + b.toNat := by
  rw [UInt64.toNat_add, Nat.mod_eq_of_lt h]

theorem toNat_sub_of_covers {a b : UInt64} (h : b.toNat ≤ a.toNat) :
    (a - b).toNat = a.toNat - b.toNat :=
  UInt64.toNat_sub_of_le a b (UInt64.le_iff_toNat_le.mpr h)

theorem toNat_mul_of_fits {a b : UInt64} (h : a.toNat * b.toNat < 2 ^ 64) :
    (a * b).toNat = a.toNat * b.toNat := by
  rw [UInt64.toNat_mul, Nat.mod_eq_of_lt h]

theorem maxUint64_div_lt {a b : UInt64} (ha : a ≠ 0) :
    maxUint64 / a < b ↔ 2 ^ 64 ≤ a.toNat * b.toNat := by
  have hpos : 0 < a.toNat := by
    rcases Nat.eq_zero_or_pos a.toNat with h | h
    · exact absurd (UInt64.toNat_inj.mp h) ha
    · exact h
  rw [UInt64.lt_iff_toNat_lt, UInt64.toNat_div, toNat_maxUint64, Nat.div_lt_iff_lt_mul hpos,
    Nat.mul_comm b.toNat]
  omega

end Arithmetic

end ChainLab.Lib
