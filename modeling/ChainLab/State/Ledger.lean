import ChainLab.State.Lifecycle

/-! What the store's operations do to balances, nonces and stakes, read as natural numbers, and what
they leave alone. -/

namespace ChainLab.State

open ChainLab.Lib ChainLab.Types

@[simp] theorem normalize_lower (address : String) :
    normalize (toLower (trimSpace address)) = normalize address :=
  Subtype.ext (toLower_trimSpace_idem address)

@[simp] theorem normalize_val (a : Address) : normalize a.val = a := Subtype.ext a.property

namespace Store

variable {s s' s'' : Store} {address : String} {amount : UInt64}

def balance (s : Store) (a : Address) : Nat := (s.entry a).balance.toNat

def nonceOf (s : Store) (a : Address) : Nat := (s.entry a).nonce.toNat

def stake (s : Store) (a : Address) : Nat := ((s.stakes.lookup a).getD 0).toNat

/-- All balances and all stakes together. -/
def supply (s : Store) : Nat :=
  GoMap.total (fun _ account => account.balance.toNat) s.accounts +
    GoMap.total (fun _ stake => stake.toNat) s.stakes

theorem toNat_stakeOf (s : Store) (address : String) :
    (s.stakeOf address).toNat = s.stake (normalize address) := rfl

theorem entry_congr (h : s'.accounts = s.accounts) (a : Address) : s'.entry a = s.entry a := by
  unfold entry; rw [h]

section Write

variable (s : Store) (a b : Address) (account : Account) (mark : Bool)

theorem entry_writeAccount :
    (s.writeAccount a account mark).entry b = if b = a then account else s.entry b := by
  have h : ((s.writeAccount a account mark).accounts.lookup b) =
      if b = a then some account else s.accounts.lookup b := by
    unfold writeAccount; cases mark <;> exact GoMap.lookup_insert_if s.accounts a b account
  unfold entry
  rw [h]
  split <;> rfl

@[simp] theorem storageBytes_writeAccount :
    (s.writeAccount a account mark).storageBytes = s.storageBytes := by cases mark <;> rfl

@[simp] theorem codes_writeAccount : (s.writeAccount a account mark).codes = s.codes := by
  cases mark <;> rfl

@[simp] theorem stakes_writeAccount : (s.writeAccount a account mark).stakes = s.stakes := by
  cases mark <;> rfl

@[simp] theorem proposals_writeAccount : (s.writeAccount a account mark).proposals = s.proposals := by
  cases mark <;> rfl

@[simp] theorem params_writeAccount : (s.writeAccount a account mark).params = s.params := by
  cases mark <;> rfl

@[simp] theorem validators_writeAccount : (s.writeAccount a account mark).validators = s.validators := by
  cases mark <;> rfl

@[simp] theorem validatorLifecycle_writeAccount :
    (s.writeAccount a account mark).validatorLifecycle = s.validatorLifecycle := by cases mark <;> rfl

private theorem weight_balance :
    GoMap.weight (fun _ account => account.balance.toNat) s.accounts a = s.balance a := by
  unfold GoMap.weight balance entry
  cases s.accounts.lookup a <;> rfl

private theorem weight_stake : GoMap.weight (fun _ stake => stake.toNat) s.stakes a = s.stake a := by
  unfold GoMap.weight stake
  cases s.stakes.lookup a <;> rfl

theorem supply_writeAccount :
    (s.writeAccount a account mark).supply + s.balance a = s.supply + account.balance.toNat := by
  have h := GoMap.total_insert (fun _ account => account.balance.toNat) s.accounts a account
  rw [weight_balance] at h
  have hacc : (s.writeAccount a account mark).accounts = s.accounts.insert a account := by
    cases mark <;> rfl
  unfold supply
  rw [hacc, stakes_writeAccount]
  omega

end Write

/-- Stores that agree on every balance and stake hold the same supply. -/
theorem supply_congr (hb : ∀ a, s'.balance a = s.balance a) (hs : ∀ a, s'.stake a = s.stake a) :
    s'.supply = s.supply := by
  have h1 : GoMap.total (fun _ account => account.balance.toNat) s'.accounts =
      GoMap.total (fun _ account => account.balance.toNat) s.accounts :=
    GoMap.total_congr fun a => by rw [weight_balance, weight_balance, hb]
  have h2 : GoMap.total (fun _ stake => stake.toNat) s'.stakes =
      GoMap.total (fun _ stake => stake.toNat) s.stakes :=
    GoMap.total_congr fun a => by rw [weight_stake, weight_stake, hs]
  unfold supply
  rw [h1, h2]

/-- Only balances and nonces may differ. -/
structure FundsOnly (s s' : Store) : Prop where
  entry : ∀ a, s'.entry a =
    { s.entry a with balance := (s'.entry a).balance, nonce := (s'.entry a).nonce }
  storageBytes : s'.storageBytes = s.storageBytes
  codes : s'.codes = s.codes
  stakes : s'.stakes = s.stakes
  proposals : s'.proposals = s.proposals
  params : s'.params = s.params
  validators : s'.validators = s.validators
  validatorLifecycle : s'.validatorLifecycle = s.validatorLifecycle

theorem FundsOnly.refl (s : Store) : FundsOnly s s := ⟨fun _ => rfl, rfl, rfl, rfl, rfl, rfl, rfl, rfl⟩

theorem FundsOnly.trans (h : FundsOnly s s') (h' : FundsOnly s' s'') : FundsOnly s s'' where
  entry a := by rw [h'.entry a, h.entry a]
  storageBytes := h'.storageBytes.trans h.storageBytes
  codes := h'.codes.trans h.codes
  stakes := h'.stakes.trans h.stakes
  proposals := h'.proposals.trans h.proposals
  params := h'.params.trans h.params
  validators := h'.validators.trans h.validators
  validatorLifecycle := h'.validatorLifecycle.trans h.validatorLifecycle

theorem FundsOnly.stake (h : FundsOnly s s') (a : Address) : s'.stake a = s.stake a := by
  unfold Store.stake; rw [h.stakes]

private theorem fundsOnly_write {a : Address} (balance nonce : UInt64) (mark : Bool) :
    FundsOnly s (s.writeAccount a { s.entry a with balance, nonce } mark) where
  entry b := by rw [entry_writeAccount]; split <;> simp_all
  storageBytes := by simp
  codes := by simp
  stakes := by simp
  proposals := by simp
  params := by simp
  validators := by simp
  validatorLifecycle := by simp

/-- A credit is exact: it is refused when the sum does not fit. -/
theorem addBalance_spec (h : s.addBalance address amount = .ok s') :
    FundsOnly s s' ∧ (∀ a, s'.nonceOf a = s.nonceOf a) ∧
      (∀ a, s'.balance a = s.balance a + if a = normalize address then amount.toNat else 0) ∧
      s'.supply = s.supply + amount.toNat := by
  simp only [addBalance, account, bind_ok, refuseIf_ok, maxUint64_sub_lt, exists_const,
    pure_eq_ok, Except.ok.injEq, not_le] at h
  obtain ⟨hfits, rfl⟩ := h
  have hsum := toNat_add_of_fits hfits
  refine ⟨fundsOnly_write _ _ _, ?_, ?_, ?_⟩
  · intro a
    unfold nonceOf
    rw [entry_writeAccount]
    split <;> simp_all
  · intro a
    unfold balance
    rw [entry_writeAccount]
    split <;> simp_all
  · have := supply_writeAccount s (normalize address)
      { s.entry (normalize address) with balance := (s.entry (normalize address)).balance + amount }
      (amount ≠ 0 ∨ normalize address ∉ s.accounts)
    simp only [hsum] at this
    unfold balance at this
    omega

/-- A debit is exact: it is refused when the balance does not cover it. -/
theorem subBalance_spec (h : s.subBalance address amount = .ok s') :
    FundsOnly s s' ∧ (∀ a, s'.nonceOf a = s.nonceOf a) ∧
      (∀ a, s'.balance a + (if a = normalize address then amount.toNat else 0) = s.balance a) ∧
      s'.supply + amount.toNat = s.supply := by
  simp only [subBalance, account, bind_ok, refuseIf_ok, UInt64.lt_iff_toNat_lt, exists_const,
    pure_eq_ok, Except.ok.injEq, not_lt] at h
  obtain ⟨hcovers, rfl⟩ := h
  have hdiff := toNat_sub_of_covers hcovers
  refine ⟨fundsOnly_write _ _ _, ?_, ?_, ?_⟩
  · intro a
    unfold nonceOf
    rw [entry_writeAccount]
    split <;> simp_all
  · intro a
    unfold balance
    rw [entry_writeAccount]
    split
    · next e => subst e; simp only [hdiff]; omega
    · simp
  · have := supply_writeAccount s (normalize address)
      { s.entry (normalize address) with balance := (s.entry (normalize address)).balance - amount }
      (amount ≠ 0 ∨ normalize address ∉ s.accounts)
    simp only [hdiff] at this
    unfold balance at this
    omega

theorem incrementNonce_spec (h : s.incrementNonce address = .ok s') :
    FundsOnly s s' ∧ (∀ a, s'.nonceOf a = s.nonceOf a + if a = normalize address then 1 else 0) ∧
      (∀ a, s'.balance a = s.balance a) := by
  simp only [incrementNonce, account, bind_ok, refuseIf_ok, exists_const, pure_eq_ok,
    Except.ok.injEq] at h
  obtain ⟨hmax, rfl⟩ := h
  refine ⟨fundsOnly_write _ _ _, ?_, ?_⟩
  · have hlt : (s.entry (normalize address)).nonce.toNat + 1 < 2 ^ 64 := by
      have hne : (s.entry (normalize address)).nonce.toNat ≠ 2 ^ 64 - 1 := fun e =>
        hmax (UInt64.toNat_inj.mp (e.trans toNat_maxUint64.symm))
      have := (s.entry (normalize address)).nonce.toNat_lt
      omega
    have hsum : ((s.entry (normalize address)).nonce + 1).toNat =
        (s.entry (normalize address)).nonce.toNat + 1 :=
      toNat_add_of_fits (b := 1) hlt
    intro a
    unfold nonceOf
    rw [entry_writeAccount]
    split <;> simp_all
  · intro a
    unfold balance
    rw [entry_writeAccount]
    split <;> simp_all

/-- A transfer debits one side and credits the other; between the same account it changes nothing. -/
theorem transfer_spec {toAddress : String} (h : s.transfer address toAddress amount = .ok s') :
    FundsOnly s s' ∧ (∀ a, s'.nonceOf a = s.nonceOf a) ∧
      (∀ a, s'.balance a + (if a = normalize address then amount.toNat else 0) =
        s.balance a + if a = normalize toAddress then amount.toNat else 0) ∧
      s'.supply = s.supply := by
  unfold transfer at h
  split at h
  · next hz =>
    obtain rfl := Except.ok.inj h
    exact ⟨FundsOnly.refl _, fun _ => rfl, fun a => by simp [hz], rfl⟩
  · simp only [bind_ok] at h
    obtain ⟨debited, hsub, hadd⟩ := h
    obtain ⟨f1, n1, b1, t1⟩ := subBalance_spec hsub
    obtain ⟨f2, n2, b2, t2⟩ := addBalance_spec hadd
    refine ⟨f1.trans f2, fun a => (n2 a).trans (n1 a), fun a => ?_, by omega⟩
    have := b1 a
    have := b2 a
    omega

/-! ### Account records -/

theorem mem_accounts_writeAccount (s : Store) (a b : Address) (account : Account) (mark : Bool) :
    b ∈ (s.writeAccount a account mark).accounts ↔ b = a ∨ b ∈ s.accounts := by
  have h : (s.writeAccount a account mark).accounts = s.accounts.insert a account := by cases mark <;> rfl
  rw [h, Finmap.mem_insert]

theorem mem_accounts_addBalance (h : s.addBalance address amount = .ok s') (b : Address) :
    b ∈ s'.accounts ↔ b = normalize address ∨ b ∈ s.accounts := by
  simp only [addBalance, account, bind_ok, refuseIf_ok, exists_const, pure_eq_ok, Except.ok.injEq] at h
  obtain ⟨-, rfl⟩ := h
  exact mem_accounts_writeAccount _ _ _ _ _

theorem mem_accounts_subBalance (h : s.subBalance address amount = .ok s') (b : Address) :
    b ∈ s'.accounts ↔ b = normalize address ∨ b ∈ s.accounts := by
  simp only [subBalance, account, bind_ok, refuseIf_ok, exists_const, pure_eq_ok, Except.ok.injEq] at h
  obtain ⟨-, rfl⟩ := h
  exact mem_accounts_writeAccount _ _ _ _ _

theorem mem_accounts_incrementNonce (h : s.incrementNonce address = .ok s') (b : Address) :
    b ∈ s'.accounts ↔ b = normalize address ∨ b ∈ s.accounts := by
  simp only [incrementNonce, account, bind_ok, refuseIf_ok, exists_const, pure_eq_ok, Except.ok.injEq] at h
  obtain ⟨-, rfl⟩ := h
  exact mem_accounts_writeAccount _ _ _ _ _

/-! ### Stakes -/

private theorem supply_writeStake (s : Store) (amount : UInt64) (a : Address) (stake : UInt64) :
    (s.writeStake a stake amount).supply + s.stake a = s.supply + stake.toNat := by
  have h := GoMap.total_insert (fun _ stake => stake.toNat) s.stakes a stake
  rw [weight_stake] at h
  unfold supply writeStake
  simp only
  omega

private theorem stake_writeStake (a b : Address) (stake : UInt64) :
    (s.writeStake a stake amount).stake b = if b = a then stake.toNat else s.stake b := by
  unfold Store.stake writeStake
  rw [GoMap.lookup_insert_if]
  split <;> rfl

theorem addStake_spec (h : s.addStake address amount = .ok s') :
    (∀ a, s'.entry a = s.entry a) ∧
      (∀ a, s'.stake a = s.stake a + if a = normalize address then amount.toNat else 0) ∧
      s'.supply = s.supply + amount.toNat := by
  simp only [addStake, bind_ok, refuseIf_ok, maxUint64_sub_lt, exists_const, pure_eq_ok,
    Except.ok.injEq, not_le] at h
  obtain ⟨hfits, rfl⟩ := h
  have hsum := toNat_add_of_fits hfits
  rw [toNat_stakeOf] at hsum
  refine ⟨entry_congr rfl, fun a => ?_, ?_⟩
  · rw [stake_writeStake]
    split
    · next e => rw [hsum, e]
    · rfl
  · have := supply_writeStake s amount (normalize address) (s.stakeOf address + amount)
    omega

theorem subStake_spec (h : s.subStake address amount = .ok s') :
    (∀ a, s'.entry a = s.entry a) ∧
      (∀ a, s'.stake a + (if a = normalize address then amount.toNat else 0) = s.stake a) ∧
      s'.supply + amount.toNat = s.supply := by
  simp only [subStake, bind_ok, refuseIf_ok, UInt64.lt_iff_toNat_lt, exists_const, pure_eq_ok,
    Except.ok.injEq, not_lt] at h
  obtain ⟨hcovers, rfl⟩ := h
  have hdiff := toNat_sub_of_covers hcovers
  rw [toNat_stakeOf] at hdiff hcovers
  refine ⟨entry_congr rfl, fun a => ?_, ?_⟩
  · rw [stake_writeStake]
    split
    · next e => rw [hdiff, e]; omega
    · rfl
  · have := supply_writeStake s amount (normalize address) (s.stakeOf address - amount)
    omega

/-! ### Operations that move no funds -/

/-- No balance, nonce or stake differs. -/
structure SameFunds (s s' : Store) : Prop where
  balance : ∀ a, s'.balance a = s.balance a
  nonce : ∀ a, s'.nonceOf a = s.nonceOf a
  stake : ∀ a, s'.stake a = s.stake a

theorem SameFunds.refl (s : Store) : SameFunds s s := ⟨fun _ => rfl, fun _ => rfl, fun _ => rfl⟩

theorem SameFunds.trans (h : SameFunds s s') (h' : SameFunds s' s'') : SameFunds s s'' :=
  ⟨fun a => (h'.balance a).trans (h.balance a), fun a => (h'.nonce a).trans (h.nonce a),
    fun a => (h'.stake a).trans (h.stake a)⟩

theorem SameFunds.supply (h : SameFunds s s') : s'.supply = s.supply := supply_congr h.balance h.stake

theorem sameFunds_of_entry (hb : ∀ a, (s'.entry a).balance = (s.entry a).balance)
    (hn : ∀ a, (s'.entry a).nonce = (s.entry a).nonce) (hs : s'.stakes = s.stakes) : SameFunds s s' :=
  ⟨fun a => by unfold Store.balance; rw [hb], fun a => by unfold nonceOf; rw [hn],
    fun a => by unfold Store.stake; rw [hs]⟩

theorem sameFunds_of_maps (ha : s'.accounts = s.accounts) (hs : s'.stakes = s.stakes) : SameFunds s s' :=
  sameFunds_of_entry (fun a => by rw [entry_congr ha]) (fun a => by rw [entry_congr ha]) hs

theorem sameFunds_writeAccount {a : Address} {account : Account} (mark : Bool)
    (hb : account.balance = (s.entry a).balance) (hn : account.nonce = (s.entry a).nonce) :
    SameFunds s (s.writeAccount a account mark) := by
  apply sameFunds_of_entry
  · intro b; rw [entry_writeAccount]; split <;> simp_all
  · intro b; rw [entry_writeAccount]; split <;> simp_all
  · simp

theorem sameFunds_setCodeID (s : Store) (address codeID : String) : SameFunds s (s.setCodeID address codeID) := by
  unfold setCodeID
  split
  · exact SameFunds.refl s
  · exact sameFunds_writeAccount true rfl rfl

theorem sameFunds_setDelegatedCodeID (s : Store) (address codeID : String) :
    SameFunds s (s.setDelegatedCodeID address codeID) := by
  unfold setDelegatedCodeID
  split
  · exact SameFunds.refl s
  · exact sameFunds_writeAccount true rfl rfl

theorem sameFunds_setContractCode (s : Store) (code : ContractCode) : SameFunds s (s.setContractCode code) := by
  unfold setContractCode
  simp only
  split
  · exact SameFunds.refl s
  · exact sameFunds_of_maps rfl rfl

theorem sameFunds_setParam (s : Store) (key value : String) : SameFunds s (s.setParam key value) := by
  unfold setParam
  simp only
  split
  · exact SameFunds.refl s
  · exact sameFunds_of_maps rfl rfl

end Store

end ChainLab.State
