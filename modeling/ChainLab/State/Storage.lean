import ChainLab.State.Ledger

/-! What the storage operations write: some keys of one account's storage, its cached size, and nothing
else. -/

namespace ChainLab.State.Store

open ChainLab.Lib ChainLab.Types

variable {s s' s'' : Store} {a : Address} {K K' : Set String} {address key value : String}

/-- The stored text under a key, if there is one. -/
def stored (s : Store) (a : Address) (key : String) : Option String := (s.entry a).storage.lookup key

theorem entry_writeStorage (s : Store) (a b : Address) (account : Account) (bytes : Option Nat)
    (keys : Finset String) (mark : Bool) :
    (s.writeStorage a account bytes keys mark).entry b = if b = a then account else s.entry b := by
  unfold writeStorage
  simp only
  rw [entry_writeAccount]
  split
  · rfl
  · cases bytes <;> rfl

/-- Only entries of the account under `a` whose keys lie in `K`, and the cached sizes, may differ. -/
structure StorageOnly (a : Address) (K : Set String) (s s' : Store) : Prop where
  own : s'.entry a = { s.entry a with storage := (s'.entry a).storage }
  keys : ∀ key ∉ K, s'.stored a key = s.stored a key
  other : ∀ b ≠ a, s'.entry b = s.entry b
  codes : s'.codes = s.codes
  stakes : s'.stakes = s.stakes
  proposals : s'.proposals = s.proposals
  params : s'.params = s.params
  validators : s'.validators = s.validators
  validatorLifecycle : s'.validatorLifecycle = s.validatorLifecycle

namespace StorageOnly

theorem refl (a : Address) (K : Set String) (s : Store) : StorageOnly a K s s :=
  ⟨rfl, fun _ _ => rfl, fun _ _ => rfl, rfl, rfl, rfl, rfl, rfl, rfl⟩

theorem mono (h : StorageOnly a K s s') (hK : K ⊆ K') : StorageOnly a K' s s' :=
  { h with keys := fun key hkey => h.keys key fun hmem => hkey (hK hmem) }

theorem trans (h : StorageOnly a K s s') (h' : StorageOnly a K s' s'') : StorageOnly a K s s'' where
  own := by rw [h'.own, h.own]
  keys key hkey := (h'.keys key hkey).trans (h.keys key hkey)
  other b hb := (h'.other b hb).trans (h.other b hb)
  codes := h'.codes.trans h.codes
  stakes := h'.stakes.trans h.stakes
  proposals := h'.proposals.trans h.proposals
  params := h'.params.trans h.params
  validators := h'.validators.trans h.validators
  validatorLifecycle := h'.validatorLifecycle.trans h.validatorLifecycle

theorem entry (h : StorageOnly a K s s') (b : Address) :
    s'.entry b = { s.entry b with storage := (s'.entry b).storage } := by
  by_cases hb : b = a
  · rw [hb]; exact h.own
  · rw [h.other b hb]

theorem sameFunds (h : StorageOnly a K s s') : SameFunds s s' :=
  sameFunds_of_entry (fun b => by rw [h.entry b]) (fun b => by rw [h.entry b]) h.stakes

theorem codeID (h : StorageOnly a K s s') (b : Address) : (s'.entry b).codeID = (s.entry b).codeID := by
  rw [h.entry b]

theorem stored (h : StorageOnly a K s s') {b : Address} {key : String} (hkey : b = a → key ∉ K) :
    s'.stored b key = s.stored b key := by
  by_cases hb : b = a
  · subst hb; exact h.keys key (hkey rfl)
  · unfold Store.stored; rw [h.other b hb]

end StorageOnly

private theorem storageOnly_write {storage : Fields} (bytes : Option Nat) (keys : Finset String) (mark : Bool)
    (hkeys : ∀ key ∉ K, storage.lookup key = (s.entry a).storage.lookup key) :
    StorageOnly a K s (s.writeStorage a { s.entry a with storage } bytes keys mark) where
  own := by rw [entry_writeStorage, if_pos rfl]
  keys key hkey := by
    unfold stored
    rw [entry_writeStorage, if_pos rfl]
    exact hkeys key hkey
  other b hb := by rw [entry_writeStorage, if_neg hb]
  codes := by unfold writeStorage; simp only [codes_writeAccount]; cases bytes <;> rfl
  stakes := by unfold writeStorage; simp only [stakes_writeAccount]; cases bytes <;> rfl
  proposals := by unfold writeStorage; simp only [proposals_writeAccount]; cases bytes <;> rfl
  params := by unfold writeStorage; simp only [params_writeAccount]; cases bytes <;> rfl
  validators := by unfold writeStorage; simp only [validators_writeAccount]; cases bytes <;> rfl
  validatorLifecycle := by
    unfold writeStorage; simp only [validatorLifecycle_writeAccount]; cases bytes <;> rfl

theorem setStorage_frame (h : s.setStorage address key value = .ok s') :
    StorageOnly (normalize address) {key} s s' := by
  simp only [setStorage, account, bind_ok, refuseIf_ok, exists_const, pure_eq_ok, Except.ok.injEq] at h
  obtain ⟨-, -, -, -, -, rfl⟩ := h
  exact storageOnly_write _ _ _ fun k hk => by rw [GoMap.lookup_insert_if, if_neg (by simpa using hk)]

theorem stored_setStorage (h : s.setStorage address key value = .ok s') (b : Address) (k : String) :
    s'.stored b k = if b = normalize address ∧ k = key then some value else s.stored b k := by
  split
  · next e =>
    simp only [setStorage, account, bind_ok, refuseIf_ok, exists_const, pure_eq_ok, Except.ok.injEq] at h
    obtain ⟨-, -, -, -, -, rfl⟩ := h
    unfold stored
    rw [entry_writeStorage, if_pos e.1, GoMap.lookup_insert_if, if_pos e.2]
  · next e => exact (setStorage_frame h).stored fun hb hk => e ⟨hb, hk⟩

private theorem storage_deleteStorage (s : Store) (address key : String) :
    ∃ bytes keys mark, s.deleteStorage address key = s.writeStorage (normalize address)
      { s.entry (normalize address) with storage := (s.entry (normalize address)).storage.erase key }
      bytes keys mark := by
  unfold deleteStorage
  simp only
  split
  · exact ⟨_, _, _, rfl⟩
  · next hnone =>
    have herase : (s.entry (normalize address)).storage.erase key = (s.entry (normalize address)).storage := by
      apply Finmap.ext_lookup
      intro j
      rw [GoMap.lookup_erase_if]
      split
      · next e => rw [e]; exact hnone.symm
      · rfl
    rw [herase]
    exact ⟨_, _, _, rfl⟩

theorem deleteStorage_frame (s : Store) (address key : String) :
    StorageOnly (normalize address) {key} s (s.deleteStorage address key) := by
  obtain ⟨bytes, keys, mark, h⟩ := storage_deleteStorage s address key
  rw [h]
  exact storageOnly_write _ _ _ fun k hk => by rw [GoMap.lookup_erase_if, if_neg (by simpa using hk)]

theorem stored_deleteStorage (s : Store) (address key : String) (b : Address) (k : String) :
    (s.deleteStorage address key).stored b k =
      if b = normalize address ∧ k = key then none else s.stored b k := by
  split
  · next e =>
    obtain ⟨bytes, keys, mark, h⟩ := storage_deleteStorage s address key
    unfold stored
    rw [h, entry_writeStorage, if_pos e.1, GoMap.lookup_erase_if, if_pos e.2]
  · next e => exact (deleteStorage_frame s address key).stored fun hb hk => e ⟨hb, hk⟩

theorem deleteStoragePrefix_frame (s : Store) (address keyPrefix : String) :
    StorageOnly (normalize address) { key | hasPrefix key keyPrefix = true } s
      (s.deleteStoragePrefix address keyPrefix) :=
  storageOnly_write _ _ _ fun k hk => by
    have : (!hasPrefix k keyPrefix) = true := by simpa using hk
    rw [GoMap.lookup_filterKeys, if_pos this]

/-! ### Delegations -/

theorem sameFunds_clearDelegation (s : Store) (address : String) : SameFunds s (s.clearDelegation address) := by
  unfold clearDelegation
  simp only
  refine SameFunds.trans ?_ (deleteStoragePrefix_frame _ _ _).sameFunds
  refine SameFunds.trans ?_ (deleteStoragePrefix_frame _ _ _).sameFunds
  refine SameFunds.trans ?_ (deleteStorage_frame _ _ _).sameFunds
  split
  · exact sameFunds_writeAccount true rfl rfl
  · exact SameFunds.refl s

end ChainLab.State.Store
