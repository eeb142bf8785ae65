import ChainLab.Lib.Loops
import ChainLab.State.Edits

/-! The validator set of a store is fixed, and its lifecycle is one that passed its checks. -/

namespace ChainLab.State

open ChainLab.Lib ChainLab.Types ChainLab.Crypto Store

variable [Primitives] {change : LifecycleChange} {s s' : Store} {lifecycle : ValidatorLifecycle}

/-- A lifecycle that a store may hold. -/
def ValidLifecycle (s : Store) : Prop :=
  ∀ lifecycle, s.validatorLifecycle = some lifecycle → validateValidatorLifecycle lifecycle s.validators = .ok ()

/-- The validator set is kept; the lifecycle is kept, or replaced by one that passed its checks. -/
structure KeepsValidators (s s' : Store) : Prop where
  validators : s'.validators = s.validators
  lifecycle : s'.validatorLifecycle = s.validatorLifecycle ∨ ∃ lifecycle,
    s'.validatorLifecycle = some lifecycle ∧ validateValidatorLifecycle lifecycle s.validators = .ok ()

namespace KeepsValidators

theorem of_eq (hvalidators : s'.validators = s.validators)
    (hlifecycle : s'.validatorLifecycle = s.validatorLifecycle) : KeepsValidators s s' :=
  ⟨hvalidators, .inl hlifecycle⟩

theorem valid (h : KeepsValidators s s') (hs : ValidLifecycle s) : ValidLifecycle s' := by
  intro lifecycle hlifecycle
  rw [h.validators]
  rcases h.lifecycle with hkept | ⟨written, hwritten, hvalid⟩
  · exact hs lifecycle (hkept ▸ hlifecycle)
  · obtain rfl := Option.some.inj (hwritten.symm.trans hlifecycle)
    exact hvalid

end KeepsValidators

theorem setValidatorLifecycle_keepsValidators (h : s.setValidatorLifecycle lifecycle = .ok s') :
    KeepsValidators s s' := by
  simp only [setValidatorLifecycle, bind_ok, pure_eq_ok, Except.ok.injEq] at h
  obtain ⟨_, hvalid, rfl⟩ := h
  exact ⟨rfl, .inr ⟨lifecycle, rfl, hvalid⟩⟩

omit [Primitives] in
private theorem writeStorage_validators (s : Store) (a : Address) (account : Account) (bytes : Option Nat)
    (keys : Finset String) (mark : Bool) :
    (s.writeStorage a account bytes keys mark).validators = s.validators ∧
      (s.writeStorage a account bytes keys mark).validatorLifecycle = s.validatorLifecycle := by
  unfold writeStorage
  rw [validators_writeAccount, validatorLifecycle_writeAccount]
  cases bytes <;> exact ⟨rfl, rfl⟩

private theorem writeStorage_keepsValidators (s : Store) (a : Address) (account : Account) (bytes : Option Nat)
    (keys : Finset String) (mark : Bool) : KeepsValidators s (s.writeStorage a account bytes keys mark) :=
  .of_eq (writeStorage_validators s a account bytes keys mark).1 (writeStorage_validators s a account bytes keys mark).2

private theorem writeAccount_keepsValidators (s : Store) (a : Address) (account : Account) (mark : Bool) :
    KeepsValidators s (s.writeAccount a account mark) :=
  .of_eq (validators_writeAccount s a account mark) (validatorLifecycle_writeAccount s a account mark)

theorem Edit.keepsValidators (h : Edit change s s') : KeepsValidators s s' := by
  cases h with
  | addBalance canonical written =>
    simp only [Store.addBalance, bind_ok, refuseIf_ok, exists_const, pure_eq_ok, Except.ok.injEq] at written
    obtain ⟨-, rfl⟩ := written
    exact writeAccount_keepsValidators _ _ _ _
  | subBalance canonical written =>
    simp only [Store.subBalance, bind_ok, refuseIf_ok, exists_const, pure_eq_ok, Except.ok.injEq] at written
    obtain ⟨-, rfl⟩ := written
    exact writeAccount_keepsValidators _ _ _ _
  | incrementNonce canonical written =>
    simp only [Store.incrementNonce, bind_ok, refuseIf_ok, exists_const, pure_eq_ok, Except.ok.injEq] at written
    obtain ⟨-, rfl⟩ := written
    exact writeAccount_keepsValidators _ _ _ _
  | setCodeID canonical trimmed =>
    unfold Store.setCodeID
    split
    · exact .of_eq rfl rfl
    · exact writeAccount_keepsValidators _ _ _ _
  | setDelegatedCodeID canonical =>
    unfold Store.setDelegatedCodeID
    split
    · exact .of_eq rfl rfl
    · exact writeAccount_keepsValidators _ _ _ _
  | setStorage canonical known written =>
    simp only [Store.setStorage, bind_ok, refuseIf_ok, exists_const, pure_eq_ok, Except.ok.injEq] at written
    obtain ⟨-, -, -, -, -, rfl⟩ := written
    exact writeStorage_keepsValidators _ _ _ _ _ _
  | deleteStorage canonical =>
    unfold Store.deleteStorage
    simp only
    split
    · exact writeStorage_keepsValidators _ _ _ _ _ _
    · exact writeStorage_keepsValidators _ _ _ _ _ _
  | deleteStoragePrefix canonical => exact writeStorage_keepsValidators _ _ _ _ _ _
  | setContractCode valid =>
    unfold Store.setContractCode
    simp only
    split
    · exact .of_eq rfl rfl
    · exact .of_eq rfl rfl
  | addStake canonical written =>
    simp only [Store.addStake, bind_ok, refuseIf_ok, exists_const, pure_eq_ok, Except.ok.injEq] at written
    obtain ⟨-, rfl⟩ := written
    exact .of_eq rfl rfl
  | subStake canonical written =>
    simp only [Store.subStake, bind_ok, refuseIf_ok, exists_const, pure_eq_ok, Except.ok.injEq] at written
    obtain ⟨-, rfl⟩ := written
    exact .of_eq rfl rfl
  | setParam =>
    unfold Store.setParam
    simp only
    split
    · exact .of_eq rfl rfl
    · exact .of_eq rfl rfl
  | setValidatorLifecycle allowed written => exact setValidatorLifecycle_keepsValidators written

/-- Writes keep the validator set and leave a lifecycle that passes its checks. -/
theorem Steps.validators (h : Steps change s s') (hs : ValidLifecycle s) :
    s'.validators = s.validators ∧ ValidLifecycle s' := by
  induction h with
  | refl => exact ⟨rfl, hs⟩
  | tail _ edit ih => exact ⟨edit.keepsValidators.validators.trans ih.1, edit.keepsValidators.valid ih.2⟩

omit [Primitives] in
theorem mem_orderedIdentities {key : String} {identity : ValidatorIdentity}
    (h : lifecycle.validators.lookup key = some identity) : (key, identity) ∈ orderedIdentities lifecycle := by
  refine List.mem_map.mpr ⟨key, GoMap.mem_sortedKeys.mpr (Finmap.mem_of_lookup_eq_some h), ?_⟩
  rw [GoMap.get, h]
  rfl

/-- An identity of a lifecycle that passes its checks passes its own, under its own address. -/
theorem identity_valid {validators : List String} {key : String} {identity : ValidatorIdentity}
    (hvalid : validateValidatorLifecycle lifecycle validators = .ok ())
    (h : lifecycle.validators.lookup key = some identity) :
    key = identity.consensusAddress ∧ validateValidatorIdentity identity = .ok () := by
  simp only [validateValidatorLifecycle, bind_ok, refuseIf_ok, exists_const] at hvalid
  obtain ⟨-, -, -, scan, hscan, -⟩ := hvalid
  obtain ⟨before, after, hround⟩ := foldlM_visits _ hscan _ (mem_orderedIdentities h)
  simp only [scanIdentity, bind_ok, refuseIf_ok, exists_const, not_not] at hround
  obtain ⟨hkey, _, hidentity, -⟩ := hround
  exact ⟨hkey, hidentity⟩

theorem identity_account_canonical {identity : ValidatorIdentity} (h : validateValidatorIdentity identity = .ok ()) :
    IsCanonicalAddress identity.account := by
  simp only [validateValidatorIdentity, bind_ok, refuseIf_ok, exists_const, not_not] at h
  exact h.1

/-! ### Loaded stores -/

omit [Primitives] in
private theorem loadStakes_lifecycle (stakes : GoMap String UInt64) (keys : List String) (store : Store) :
    (keys.foldl (fun (store : Store) address => { store with
      stakes := store.stakes.insert (normalize address) (GoMap.get stakes address) }) store).validatorLifecycle =
      store.validatorLifecycle := by
  induction keys generalizing store with
  | nil => rfl
  | cons key rest ih => exact ih _

/-- A store made from a snapshot starts a journal and holds a lifecycle that passes its checks. -/
theorem newStoreFromSnapshot_valid {snapshot : Snapshot} (h : newStoreFromSnapshot snapshot = .ok s) :
    s.mutations = {} ∧ ValidLifecycle s := by
  simp only [newStoreFromSnapshot, bind_ok, pure_eq_ok] at h
  obtain ⟨_, -, withAccounts, haccounts, withCodes, hcodes, _, -, withProposals, hproposals, withParams, hparams,
    validators, -, hlifecycle⟩ := h
  -- the loops before the lifecycle leave it empty
  have hround : ∀ {store store' : Store}, store'.validatorLifecycle = store.validatorLifecycle →
      store.validatorLifecycle = none → store'.validatorLifecycle = none := fun heq hnone => heq.trans hnone
  have hnone₁ : withAccounts.validatorLifecycle = none := by
    refine foldlM_keeps (fun store : Store => store.validatorLifecycle = none) _ (fun b address b' _ hb hload => ?_)
      rfl haccounts
    simp only [loadAccount, bind_ok, refuseIf_ok, exists_const, pure_eq_ok, Except.ok.injEq] at hload
    obtain ⟨-, -, -, -, _, -, rfl⟩ := hload
    exact hround rfl hb
  have hnone₂ : withCodes.validatorLifecycle = none := by
    refine foldlM_keeps (fun store : Store => store.validatorLifecycle = none) _ (fun b key b' _ hb hload => ?_)
      hnone₁ hcodes
    simp only [loadCode, bind_ok, refuseIf_ok, mapError_ok, exists_const, pure_eq_ok, Except.ok.injEq] at hload
    obtain ⟨_, -, _, -, -, -, _, -, rfl⟩ := hload
    exact hround rfl hb
  have hnone₃ : withProposals.validatorLifecycle = none := by
    refine foldlM_keeps (fun store : Store => store.validatorLifecycle = none) _ (fun b key b' _ hb hload => ?_)
      ((loadStakes_lifecycle _ _ _).trans hnone₂) hproposals
    simp only [loadProposal, bind_ok, refuseIf_ok, mapError_ok, exists_const, pure_eq_ok, Except.ok.injEq] at hload
    obtain ⟨_, -, _, -, -, -, _, -, rfl⟩ := hload
    exact hround rfl hb
  have hnone₄ : withParams.validatorLifecycle = none := by
    refine foldlM_keeps (fun store : Store => store.validatorLifecycle = none) _ (fun b key b' _ hb hload => ?_)
      hnone₃ hparams
    simp only [loadParam, bind_ok, pure_eq_ok, Except.ok.injEq] at hload
    obtain ⟨_, -, rfl⟩ := hload
    exact hround rfl hb
  have hstart : ValidLifecycle { withParams with validators } := by
    intro lifecycle hsome
    cases hnone₄.symm.trans hsome
  cases hsnapshot : snapshot.validatorLifecycle with
  | none =>
    simp only [hsnapshot, bind_ok, Except.ok.injEq] at hlifecycle
    obtain ⟨_, rfl, rfl⟩ := hlifecycle
    exact ⟨rfl, hstart⟩
  | some lifecycle =>
    simp only [hsnapshot, bind_ok, mapError_ok, Except.ok.injEq] at hlifecycle
    obtain ⟨loaded, hset, rfl⟩ := hlifecycle
    exact ⟨rfl, (setValidatorLifecycle_keepsValidators hset).valid hstart⟩

end ChainLab.State
