import ChainLab.State.Snapshot
import ChainLab.State.Storage

/-! The writes that transactions, contracts and block evidence make to a store, one constructor for each
operation, and the stores they lead to. -/

namespace ChainLab.State

open ChainLab.Lib ChainLab.Types ChainLab.Crypto Relation

/-- How a stored lifecycle may be replaced by another. -/
abbrev LifecycleChange := Option ValidatorLifecycle → ValidatorLifecycle → Prop

variable [Primitives]

/-- One write. Addresses are canonical, code ids trimmed, and storage is only set under an account that
exists: `SetStorage` does not journal the account it writes. -/
inductive Edit (change : LifecycleChange) : Store → Store → Prop
  | addBalance {s s' : Store} {address : String} {amount : UInt64} (canonical : IsCanonicalAddress address)
    (written : s.addBalance address amount = .ok s') : Edit change s s'
  | subBalance {s s' : Store} {address : String} {amount : UInt64} (canonical : IsCanonicalAddress address)
    (written : s.subBalance address amount = .ok s') : Edit change s s'
  | incrementNonce {s s' : Store} {address : String} (canonical : IsCanonicalAddress address)
    (written : s.incrementNonce address = .ok s') : Edit change s s'
  | setCodeID {s : Store} {address codeID : String} (canonical : IsCanonicalAddress address)
    (trimmed : trimSpace codeID = codeID) : Edit change s (s.setCodeID address codeID)
  | setDelegatedCodeID {s : Store} {address codeID : String} (canonical : IsCanonicalAddress address) :
    Edit change s (s.setDelegatedCodeID address codeID)
  | setStorage {s s' : Store} {address key value : String} (canonical : IsCanonicalAddress address)
    (known : normalize address ∈ s.accounts) (written : s.setStorage address key value = .ok s') :
    Edit change s s'
  | deleteStorage {s : Store} {address key : String} (canonical : IsCanonicalAddress address) :
    Edit change s (s.deleteStorage address key)
  | deleteStoragePrefix {s : Store} {address keyPrefix : String} (canonical : IsCanonicalAddress address) :
    Edit change s (s.deleteStoragePrefix address keyPrefix)
  | setContractCode {s : Store} {code : ContractCode} (valid : validateSnapshotContractCode code = .ok ()) :
    Edit change s (s.setContractCode code)
  | addStake {s s' : Store} {address : String} {amount : UInt64} (canonical : IsCanonicalAddress address)
    (written : s.addStake address amount = .ok s') : Edit change s s'
  | subStake {s s' : Store} {address : String} {amount : UInt64} (canonical : IsCanonicalAddress address)
    (written : s.subStake address amount = .ok s') : Edit change s s'
  | setParam {s : Store} {key value : String} : Edit change s (s.setParam key value)
  | setValidatorLifecycle {s s' : Store} {lifecycle : ValidatorLifecycle}
    (allowed : change s.validatorLifecycle lifecycle) (written : s.setValidatorLifecycle lifecycle = .ok s') :
    Edit change s s'

/-- The stores reached by writes. -/
abbrev Steps (change : LifecycleChange) : Store → Store → Prop := ReflTransGen (Edit change)

variable {change change' : LifecycleChange} {s s' s'' : Store} {a : Address} {address : String}

theorem Edit.mono (hchange : ∀ previous next, change previous next → change' previous next)
    (h : Edit change s s') : Edit change' s s' := by
  cases h with
  | addBalance canonical written => exact .addBalance canonical written
  | subBalance canonical written => exact .subBalance canonical written
  | incrementNonce canonical written => exact .incrementNonce canonical written
  | setCodeID canonical trimmed => exact .setCodeID canonical trimmed
  | setDelegatedCodeID canonical => exact .setDelegatedCodeID canonical
  | setStorage canonical known written => exact .setStorage canonical known written
  | deleteStorage canonical => exact .deleteStorage canonical
  | deleteStoragePrefix canonical => exact .deleteStoragePrefix canonical
  | setContractCode valid => exact .setContractCode valid
  | addStake canonical written => exact .addStake canonical written
  | subStake canonical written => exact .subStake canonical written
  | setParam => exact .setParam
  | setValidatorLifecycle allowed written => exact .setValidatorLifecycle (hchange _ _ allowed) written

theorem Steps.mono (hchange : ∀ previous next, change previous next → change' previous next)
    (h : Steps change s s') : Steps change' s s' :=
  ReflTransGen.mono (fun _ _ edit => Edit.mono hchange edit) _ _ h

/-! ### Accounts stay known -/

namespace Store

omit [Primitives] in
theorem mem_accounts_writeStorage (s : Store) (b : Address) (account : Account) (bytes : Option Nat)
    (keys : Finset String) (mark : Bool) :
    b ∈ (s.writeStorage a account bytes keys mark).accounts ↔ b = a ∨ b ∈ s.accounts := by
  unfold writeStorage
  rw [mem_accounts_writeAccount]
  cases bytes <;> rfl

theorem accounts_setValidatorLifecycle {lifecycle : ValidatorLifecycle}
    (h : s.setValidatorLifecycle lifecycle = .ok s') : s'.accounts = s.accounts := by
  simp only [setValidatorLifecycle, bind_ok, pure_eq_ok, Except.ok.injEq] at h
  obtain ⟨_, -, rfl⟩ := h
  rfl

end Store

open Store

theorem Edit.mem_accounts (h : Edit change s s') (ha : a ∈ s.accounts) : a ∈ s'.accounts := by
  cases h with
  | addBalance canonical written => exact (mem_accounts_addBalance written a).mpr (.inr ha)
  | subBalance canonical written => exact (mem_accounts_subBalance written a).mpr (.inr ha)
  | incrementNonce canonical written => exact (mem_accounts_incrementNonce written a).mpr (.inr ha)
  | setCodeID canonical trimmed =>
    unfold Store.setCodeID
    split
    · exact ha
    · exact (mem_accounts_writeAccount _ _ _ _ _).mpr (.inr ha)
  | setDelegatedCodeID canonical =>
    unfold Store.setDelegatedCodeID
    split
    · exact ha
    · exact (mem_accounts_writeAccount _ _ _ _ _).mpr (.inr ha)
  | setStorage canonical known written =>
    simp only [Store.setStorage, bind_ok, refuseIf_ok, exists_const, pure_eq_ok, Except.ok.injEq] at written
    obtain ⟨-, -, -, -, -, rfl⟩ := written
    exact (mem_accounts_writeStorage _ _ _ _ _ _).mpr (.inr ha)
  | deleteStorage canonical =>
    unfold Store.deleteStorage
    simp only
    split
    · exact (mem_accounts_writeStorage _ _ _ _ _ _).mpr (.inr ha)
    · exact (mem_accounts_writeStorage _ _ _ _ _ _).mpr (.inr ha)
  | deleteStoragePrefix canonical => exact (mem_accounts_writeStorage _ _ _ _ _ _).mpr (.inr ha)
  | setContractCode valid =>
    unfold Store.setContractCode
    simp only
    split
    · exact ha
    · exact ha
  | addStake canonical written =>
    simp only [Store.addStake, bind_ok, refuseIf_ok, exists_const, pure_eq_ok, Except.ok.injEq] at written
    obtain ⟨-, rfl⟩ := written
    exact ha
  | subStake canonical written =>
    simp only [Store.subStake, bind_ok, refuseIf_ok, exists_const, pure_eq_ok, Except.ok.injEq] at written
    obtain ⟨-, rfl⟩ := written
    exact ha
  | setParam =>
    unfold Store.setParam
    simp only
    split
    · exact ha
    · exact ha
  | setValidatorLifecycle allowed written =>
    rw [accounts_setValidatorLifecycle written]
    exact ha

theorem Steps.mem_accounts (h : Steps change s s') (ha : a ∈ s.accounts) : a ∈ s'.accounts := by
  induction h with
  | refl => exact ha
  | tail _ edit ih => exact edit.mem_accounts ih

/-! ### Writes in the storage of a known account -/

/-- From a store that knows the account `a`, the second store is reached by writes. -/
def Acts (change : LifecycleChange) (a : Address) (s s' : Store) : Prop := a ∈ s.accounts → Steps change s s'

namespace Acts

theorem refl (a : Address) (s : Store) : Acts change a s s := fun _ => .refl

theorem trans (h : Acts change a s s') (h' : Acts change a s' s'') : Acts change a s s'' := by
  intro ha
  have hsteps := h ha
  exact hsteps.trans (h' (hsteps.mem_accounts ha))

theorem edit (h : Edit change s s') : Acts change a s s' := fun _ => .single h

theorem steps (h : Steps change s s') : Acts change a s s' := fun _ => h

theorem setStorage {key value : String} (canonical : IsCanonicalAddress address)
    (written : s.setStorage address key value = .ok s') : Acts change (normalize address) s s' :=
  fun known => .single (.setStorage canonical known written)

end Acts

omit [Primitives] in
/-- `ClearDelegation` is made of the store's other operations. -/
theorem clearDelegation_eq (s : Store) (address : String) : s.clearDelegation address =
    (((s.setDelegatedCodeID address "").deleteStorage address "owner").deleteStoragePrefix address
      "session:").deleteStoragePrefix address "recovery:" := by
  have hcleared : (if normalize address ∉ s.accounts ∨ (s.account address).delegatedCodeID ≠ "" then
      s.writeAccount (normalize address) { s.account address with delegatedCodeID := "" } true
      else s) = s.setDelegatedCodeID address "" := by
    unfold setDelegatedCodeID
    by_cases hsame : normalize address ∈ s.accounts ∧ (s.account address).delegatedCodeID = trimSpace ""
    · rw [if_pos hsame, if_neg fun h => h.elim (fun h => h hsame.1) (fun h => h hsame.2)]
    · rw [if_neg hsame, if_pos]
      · rfl
      · by_contra hnot
        rw [not_or, not_not, not_not] at hnot
        exact hsame hnot
  unfold clearDelegation
  simp only
  rw [hcleared]

/-- Clearing a delegation is a sequence of writes. -/
theorem clearDelegation_steps (s : Store) (canonical : IsCanonicalAddress address) :
    Steps change s (s.clearDelegation address) := by
  rw [clearDelegation_eq]
  exact (((ReflTransGen.single (.setDelegatedCodeID canonical)).tail (.deleteStorage canonical)).tail
    (.deleteStoragePrefix canonical)).tail (.deleteStoragePrefix canonical)

theorem transfer_steps {toAddress : String} {amount : UInt64} (hfrom : IsCanonicalAddress address)
    (hto : IsCanonicalAddress toAddress) (h : s.transfer address toAddress amount = .ok s') :
    Steps change s s' := by
  unfold transfer at h
  split at h
  · cases h
    exact .refl
  · rw [bind_ok] at h
    obtain ⟨debited, hsub, hadd⟩ := h
    exact (ReflTransGen.single (.subBalance hfrom hsub)).tail (.addBalance hto hadd)

end ChainLab.State
