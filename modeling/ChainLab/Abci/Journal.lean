import ChainLab.Abci.FlatTree
import ChainLab.State.Edits

/-! Every write to a store journals the flat entries it changes. -/

namespace ChainLab.Abci

open ChainLab.Lib ChainLab.Types ChainLab.Crypto ChainLab.State ChainLab.Proof Relation

/-- The entries a journal names. -/
def Marks (m : MutationTracker) : FlatKey → Prop
  | .account address => ∃ a ∈ m.accounts, a.val = address
  | .accountStorage address key => ∃ a, (a, key) ∈ m.accountStorage ∧ a.val = address
  | .code codeID => codeID ∈ m.contractCodes
  | .stake address => ∃ a ∈ m.stakes, a.val = address
  | .proposal id => id ∈ m.proposals
  | .param key => key ∈ m.params
  | .validators => m.validators = true
  | .validatorIdentity consensusAddress => consensusAddress ∈ m.validatorIdentities
  | .validatorOffence key => key ∈ m.validatorOffences

private theorem mem_sortedStorageMutations {slots : Finset (Address × String)} {slot : Address × String} :
    slot ∈ sortedStorageMutations slots ↔ slot ∈ slots := by
  obtain ⟨a, key⟩ := slot
  simp only [sortedStorageMutations, List.mem_flatMap, Finset.mem_sort, Finset.mem_image, List.mem_map,
    Finset.mem_filter, Prod.exists, exists_and_right, exists_eq_right, Prod.mk.injEq]
  constructor
  · rintro ⟨_, -, _, hmem, rfl, rfl⟩
    exact hmem
  · exact fun hmem => ⟨a, ⟨key, hmem⟩, key, hmem, rfl, rfl⟩

theorem mem_mutatedKeys {m : MutationTracker} {k : FlatKey} : k ∈ mutatedKeys m ↔ Marks m k := by
  unfold mutatedKeys
  simp only [List.mem_append, List.mem_map, Finset.mem_sort, mem_sortedStorageMutations]
  cases k <;> simp [Marks]

/-- No reader of the journal rewrites a key of it. -/
structure CanonicalJournal (m : MutationTracker) : Prop where
  codes : ∀ codeID ∈ m.contractCodes, trimSpace codeID = codeID
  params : ∀ key ∈ m.params, trimSpace key = key

theorem lookup_byText {ν : Type} (m : GoMap Address ν) (a : Address) : (byText m).lookup a.val = m.lookup a :=
  GoMap.lookup_rekey Subtype.val_injective m a

theorem lookup_byText_of_not {ν : Type} {m : GoMap Address ν} {text : String} (h : ∀ a : Address, a.val ≠ text) :
    (byText m).lookup text = none := by
  rw [Finmap.lookup_eq_none]
  intro hmem
  obtain ⟨a, -, ha⟩ := GoMap.exists_of_mem_rekey hmem
  exact h a ha

/-- The store's readers return the entry of the snapshot for every journalled key. -/
theorem readFlatValue_eq {s : Store} (hcanonical : CanonicalJournal s.mutations) {k : FlatKey}
    (h : Marks s.mutations k) : readFlatValue s k = flatValue s.snapshot k := by
  cases k with
  | account address =>
    obtain ⟨a, -, rfl⟩ := h
    simp only [readFlatValue, flatValue, Store.snapshot, lookup_byText]
    rw [normalize_val]
  | accountStorage address key =>
    obtain ⟨a, -, rfl⟩ := h
    simp only [readFlatValue, flatValue, Store.snapshot, lookup_byText, Store.account, Store.entry]
    rw [normalize_val]
    cases s.accounts.lookup a with
    | none => rfl
    | some account => rfl
  | code codeID =>
    simp only [readFlatValue, flatValue, Store.snapshot, Store.contractCode]
    rw [hcanonical.codes _ h]
  | stake address =>
    obtain ⟨a, -, rfl⟩ := h
    simp only [readFlatValue, flatValue, Store.snapshot, lookup_byText]
    rw [normalize_val]
  | param key =>
    simp only [readFlatValue, flatValue, Store.snapshot]
    rw [hcanonical.params _ h]
  | validatorIdentity consensusAddress =>
    simp only [readFlatValue, flatValue, Store.snapshot, Store.validatorIdentityByConsensusAddress]
    cases s.validatorLifecycle with
    | none => rfl
    | some lifecycle => rfl
  | validatorOffence key =>
    simp only [readFlatValue, flatValue, Store.snapshot]
    cases s.validatorLifecycle with
    | none => rfl
    | some lifecycle => rfl
  | proposal id => rfl
  | validators => rfl

/-! ### Writes -/

/-- The second store's journal extends the first's and names every entry in which they differ. -/
structure Journals (s s' : Store) : Prop where
  mono : ∀ k, Marks s.mutations k → Marks s'.mutations k
  same : ∀ k, ¬Marks s'.mutations k → flatValue s'.snapshot k = flatValue s.snapshot k
  canonical : CanonicalJournal s.mutations → CanonicalJournal s'.mutations

namespace Journals

variable {s s' s'' : Store}

theorem refl (s : Store) : Journals s s := ⟨fun _ h => h, fun _ _ => rfl, fun h => h⟩

theorem trans (h : Journals s s') (h' : Journals s' s'') : Journals s s'' where
  mono k hk := h'.mono k (h.mono k hk)
  same k hk := (h'.same k hk).trans (h.same k fun hk' => hk (h'.mono k hk'))
  canonical hs := h'.canonical (h.canonical hs)

end Journals

section Accounts

variable {s s' : Store} {a : Address} {account : Account}

/-- What a write of the account `a` has to journal: the account unless its own fields stay, and each storage
slot that changes. -/
structure AccountWrite (s : Store) (a : Address) (account : Account) (s' : Store) : Prop where
  accounts : s'.accounts = s.accounts.insert a account
  rest : { s'.snapshot with accounts := ∅ } = { s.snapshot with accounts := ∅ }
  mono : ∀ k, Marks s.mutations k → Marks s'.mutations k
  codes : s'.mutations.contractCodes = s.mutations.contractCodes
  params : s'.mutations.params = s.mutations.params
  core : a ∈ s'.mutations.accounts ∨
    (s.accounts.lookup a).map persistedAccountJson = some (persistedAccountJson account)
  storage : ∀ key, (a, key) ∈ s'.mutations.accountStorage ∨
    account.storage.lookup key = (s.entry a).storage.lookup key

theorem AccountWrite.journals (h : AccountWrite s a account s') : Journals s s' where
  mono := h.mono
  canonical hs := ⟨h.codes ▸ hs.codes, h.params ▸ hs.params⟩
  same k hk := by
    have hrest := Snapshot.mk.inj h.rest
    obtain ⟨-, hcodes, hstakes, hproposals, hparams, hvalidators, hlifecycle⟩ := hrest
    have hother : ∀ b : Address, b ≠ a → s'.accounts.lookup b = s.accounts.lookup b := by
      intro b hb
      rw [h.accounts, GoMap.lookup_insert_if, if_neg hb]
    have hself : s'.accounts.lookup a = some account := by rw [h.accounts, GoMap.lookup_insert_if, if_pos rfl]
    cases k with
    | account address =>
      by_cases haddress : ∃ b : Address, b.val = address
      · obtain ⟨b, rfl⟩ := haddress
        simp only [flatValue, Store.snapshot, lookup_byText]
        by_cases hb : b = a
        · subst hb
          rw [hself]
          exact (h.core.resolve_left fun hmem => hk ⟨b, hmem, rfl⟩).symm
        · rw [hother b hb]
      · have hnot : ∀ b : Address, b.val ≠ address := fun b hb => haddress ⟨b, hb⟩
        simp only [flatValue, Store.snapshot, lookup_byText_of_not hnot]
    | accountStorage address key =>
      by_cases haddress : ∃ b : Address, b.val = address
      · obtain ⟨b, rfl⟩ := haddress
        simp only [flatValue, Store.snapshot, lookup_byText]
        by_cases hb : b = a
        · subst hb
          have hslot := (h.storage key).resolve_left fun hmem => hk ⟨b, hmem, rfl⟩
          rw [hself, Option.bind_some, hslot, Store.entry]
          cases s.accounts.lookup b with
          | none => rfl
          | some old => rfl
        · rw [hother b hb]
      · have hnot : ∀ b : Address, b.val ≠ address := fun b hb => haddress ⟨b, hb⟩
        simp only [flatValue, Store.snapshot, lookup_byText_of_not hnot]
    | code codeID => simp only [flatValue, hcodes]
    | stake address => simp only [flatValue, hstakes]
    | proposal id => simp only [flatValue, hproposals]
    | param key => simp only [flatValue, hparams]
    | validators => simp only [flatValue, hvalidators]
    | validatorIdentity consensusAddress => simp only [flatValue, hlifecycle]
    | validatorOffence key => simp only [flatValue, hlifecycle]

end Accounts

/-! ### One lemma for each kind of write -/

section Edits

variable {s s' : Store} {a : Address} {account : Account}

theorem marks_markAccount {k : FlatKey} (h : Marks s.mutations k) : Marks (s.markAccount a).mutations k := by
  cases k with
  | account address =>
    obtain ⟨b, hb, rfl⟩ := h
    exact ⟨b, Finset.mem_insert_of_mem hb, rfl⟩
  | _ => exact h

theorem marks_markAccountStorage {keys : Finset String} {k : FlatKey} (h : Marks s.mutations k) :
    Marks (s.markAccountStorage a keys).mutations k := by
  cases k with
  | accountStorage address key =>
    obtain ⟨b, hb, rfl⟩ := h
    exact ⟨b, Finset.mem_union_left _ hb, rfl⟩
  | _ => exact h

/-- The fields of an account that its own entry holds. -/
def SameCore (s : Store) (a : Address) (account : Account) : Prop :=
  (s.accounts.lookup a).map persistedAccountJson = some (persistedAccountJson account)

/-- An account that exists, with another storage. -/
theorem sameCore_of_mem (h : a ∈ s.accounts) (storage : Fields) : SameCore s a { s.entry a with storage } := by
  obtain ⟨old, hold⟩ := Finmap.mem_iff.mp h
  unfold SameCore Store.entry
  rw [hold]
  rfl

private theorem accountWrite_writeAccount {mark : Bool} (hstorage : account.storage = (s.entry a).storage)
    (hcore : mark = false → SameCore s a account) : AccountWrite s a account (s.writeAccount a account mark) where
  accounts := by cases mark <;> rfl
  rest := by cases mark <;> rfl
  mono k hk := by
    cases mark with
    | false => exact hk
    | true => exact marks_markAccount hk
  codes := by cases mark <;> rfl
  params := by cases mark <;> rfl
  core := by
    cases mark with
    | false => exact .inr (hcore rfl)
    | true => exact .inl (Finset.mem_insert_self _ _)
  storage key := .inr (by rw [hstorage])

/-- A write that keeps the storage. -/
theorem writeAccount_journals {mark : Bool} (hstorage : account.storage = (s.entry a).storage)
    (hcore : mark = false → SameCore s a account) : Journals s (s.writeAccount a account mark) :=
  (accountWrite_writeAccount hstorage hcore).journals

private theorem accountWrite_writeStorage {bytes : Option Nat} {keys : Finset String} {mark : Bool}
    (hstorage : ∀ key ∉ keys, account.storage.lookup key = (s.entry a).storage.lookup key)
    (hcore : mark = false → SameCore s a account) :
    AccountWrite s a account (s.writeStorage a account bytes keys mark) where
  accounts := by cases bytes <;> cases mark <;> rfl
  rest := by cases bytes <;> cases mark <;> rfl
  mono k hk := by
    have hslots : Marks (s.markAccountStorage a keys).mutations k := marks_markAccountStorage hk
    cases bytes <;> cases mark
    · exact hslots
    · exact marks_markAccount hslots
    · exact hslots
    · exact marks_markAccount hslots
  codes := by cases bytes <;> cases mark <;> rfl
  params := by cases bytes <;> cases mark <;> rfl
  core := by
    cases mark with
    | false => exact .inr (hcore rfl)
    | true => exact .inl (Finset.mem_insert_self _ _)
  storage key := by
    by_cases hkey : key ∈ keys
    · left
      have hmem : (a, key) ∈ s.mutations.accountStorage ∪ keys.image fun key => (a, key) :=
        Finset.mem_union_right _ (Finset.mem_image_of_mem _ hkey)
      cases bytes <;> cases mark <;> exact hmem
    · exact .inr (hstorage key hkey)

/-- A write of an account's storage. -/
theorem writeStorage_journals {bytes : Option Nat} {keys : Finset String} {mark : Bool}
    (hstorage : ∀ key ∉ keys, account.storage.lookup key = (s.entry a).storage.lookup key)
    (hcore : mark = false → SameCore s a account) : Journals s (s.writeStorage a account bytes keys mark) :=
  (accountWrite_writeStorage hstorage hcore).journals

/-- An amount that does not change the account is not journalled. -/
private theorem sameCore_of_unmarked {amount : UInt64} {updated : Account}
    (h : decide (amount ≠ 0 ∨ a ∉ s.accounts) = false) (hsame : amount = 0 → updated = s.entry a) :
    SameCore s a updated := by
  have hnot := of_decide_eq_false h
  rw [not_or, not_not, not_not] at hnot
  rw [hsame hnot.1]
  exact sameCore_of_mem hnot.2 (s.entry a).storage

variable {address key value keyPrefix codeID : String} {amount : UInt64}

theorem addBalance_journals (h : s.addBalance address amount = .ok s') : Journals s s' := by
  simp only [Store.addBalance, bind_ok, refuseIf_ok, exists_const, pure_eq_ok, Except.ok.injEq] at h
  obtain ⟨-, rfl⟩ := h
  refine writeAccount_journals rfl fun hmark => sameCore_of_unmarked hmark ?_
  rintro rfl
  rw [UInt64.add_zero]

theorem subBalance_journals (h : s.subBalance address amount = .ok s') : Journals s s' := by
  simp only [Store.subBalance, bind_ok, refuseIf_ok, exists_const, pure_eq_ok, Except.ok.injEq] at h
  obtain ⟨-, rfl⟩ := h
  refine writeAccount_journals rfl fun hmark => sameCore_of_unmarked hmark ?_
  rintro rfl
  rw [UInt64.sub_zero]

theorem incrementNonce_journals (h : s.incrementNonce address = .ok s') : Journals s s' := by
  simp only [Store.incrementNonce, bind_ok, refuseIf_ok, exists_const, pure_eq_ok, Except.ok.injEq] at h
  obtain ⟨-, rfl⟩ := h
  exact writeAccount_journals rfl fun hmark => nomatch hmark

theorem setCodeID_journals (s : Store) (address codeID : String) : Journals s (s.setCodeID address codeID) := by
  unfold Store.setCodeID
  split
  · exact .refl s
  · exact writeAccount_journals rfl fun hmark => nomatch hmark

theorem setDelegatedCodeID_journals (s : Store) (address codeID : String) :
    Journals s (s.setDelegatedCodeID address codeID) := by
  unfold Store.setDelegatedCodeID
  split
  · exact .refl s
  · exact writeAccount_journals rfl fun hmark => nomatch hmark

/-- `SetStorage` leaves the account's own entry to the journal of whoever made the account. -/
theorem setStorage_journals (known : normalize address ∈ s.accounts) (h : s.setStorage address key value = .ok s') :
    Journals s s' := by
  simp only [Store.setStorage, bind_ok, refuseIf_ok, exists_const, pure_eq_ok, Except.ok.injEq] at h
  obtain ⟨-, -, -, -, -, rfl⟩ := h
  refine writeStorage_journals (fun other hother => ?_) fun _ => sameCore_of_mem known _
  rw [GoMap.lookup_insert_if, if_neg fun heq => hother (Finset.mem_singleton.mpr heq)]

private theorem mem_of_unmarked (h : decide (a ∉ s.accounts) = false) : a ∈ s.accounts :=
  not_not.mp (of_decide_eq_false h)

theorem deleteStorage_journals (s : Store) (address key : String) : Journals s (s.deleteStorage address key) := by
  unfold Store.deleteStorage
  simp only
  split
  · refine writeStorage_journals (fun other hother => ?_) fun hmark => sameCore_of_mem (mem_of_unmarked hmark) _
    rw [GoMap.lookup_erase_if, if_neg fun heq => hother (Finset.mem_singleton.mpr heq)]
  · exact writeStorage_journals (fun _ _ => rfl) fun hmark => sameCore_of_mem (mem_of_unmarked hmark) _

theorem deleteStoragePrefix_journals (s : Store) (address keyPrefix : String) :
    Journals s (s.deleteStoragePrefix address keyPrefix) := by
  refine writeStorage_journals (fun other hother => ?_) fun hmark => sameCore_of_mem (mem_of_unmarked hmark) _
  rw [GoMap.lookup_filterKeys]
  split
  · rfl
  · next hprefixed =>
    -- a key with the text at its start that is not journalled was not there
    have habsent : (GoMap.filterKeys (fun key => hasPrefix key keyPrefix) (s.account address).storage).lookup other =
        none := Finmap.lookup_eq_none.mpr fun hmem => hother (Finmap.mem_keys.mpr hmem)
    rw [GoMap.lookup_filterKeys, if_pos (by simpa using hprefixed)] at habsent
    exact habsent.symm

theorem setContractCode_journals (s : Store) (code : ContractCode) : Journals s (s.setContractCode code) := by
  unfold Store.setContractCode
  simp only
  split
  · exact .refl s
  · refine ⟨fun k hk => ?_, fun k hk => ?_, fun hs => ⟨fun codeID hmem => ?_, hs.params⟩⟩
    · cases k with
      | code codeID => exact Finset.mem_insert_of_mem hk
      | _ => exact hk
    · cases k with
      | code codeID =>
        have hne : codeID ≠ trimSpace code.codeID := fun heq => hk (heq ▸ Finset.mem_insert_self _ _)
        simp only [flatValue, Store.snapshot, GoMap.lookup_insert_if, if_neg hne]
      | _ => rfl
    · rcases Finset.mem_insert.mp hmem with rfl | hmem
      · exact trimSpace_trimSpace code.codeID
      · exact hs.codes codeID hmem

theorem setParam_journals (s : Store) (key value : String) : Journals s (s.setParam key value) := by
  unfold Store.setParam
  simp only
  split
  · exact .refl s
  · refine ⟨fun k hk => ?_, fun k hk => ?_, fun hs => ⟨hs.codes, fun other hmem => ?_⟩⟩
    · cases k with
      | param other => exact Finset.mem_insert_of_mem hk
      | _ => exact hk
    · cases k with
      | param other =>
        have hne : other ≠ trimSpace key := fun heq => hk (heq ▸ Finset.mem_insert_self _ _)
        simp only [flatValue, Store.snapshot, GoMap.lookup_insert_if, if_neg hne]
      | _ => rfl
    · rcases Finset.mem_insert.mp hmem with rfl | hmem
      · exact trimSpace_trimSpace key
      · exact hs.params other hmem

/-- A stake is journalled unless it exists and the amount is zero. -/
theorem writeStake_journals {stake : UInt64} (hsame : amount = 0 → a ∈ s.stakes → s.stakes.lookup a = some stake) :
    Journals s (s.writeStake a stake amount) := by
  refine ⟨fun k hk => ?_, fun k hk => ?_, fun hs => ⟨hs.codes, hs.params⟩⟩
  · cases k with
    | stake address =>
      obtain ⟨b, hb, rfl⟩ := hk
      refine ⟨b, ?_, rfl⟩
      unfold Store.writeStake
      simp only
      split
      · exact Finset.mem_insert_of_mem hb
      · exact hb
    | _ => exact hk
  · cases k with
    | stake address =>
      by_cases haddress : ∃ b : Address, b.val = address
      · obtain ⟨b, rfl⟩ := haddress
        simp only [flatValue, Store.snapshot, lookup_byText, Store.writeStake, GoMap.lookup_insert_if]
        split
        · next heq =>
          subst heq
          have hunmarked : ¬(amount ≠ 0 ∨ b ∉ s.stakes) := by
            intro hmark
            refine hk ⟨b, ?_, rfl⟩
            unfold Store.writeStake
            simp only
            rw [if_pos hmark]
            exact Finset.mem_insert_self _ _
          rw [not_or, not_not, not_not] at hunmarked
          rw [hsame hunmarked.1 hunmarked.2]
        · rfl
      · have hnot : ∀ b : Address, b.val ≠ address := fun b hb => haddress ⟨b, hb⟩
        simp only [flatValue, Store.snapshot, lookup_byText_of_not hnot]
    | _ => rfl

private theorem lookup_stakeOf (h : normalize address ∈ s.stakes) :
    s.stakes.lookup (normalize address) = some (s.stakeOf address) := by
  obtain ⟨stake, hstake⟩ := Finmap.mem_iff.mp h
  unfold Store.stakeOf
  rw [hstake]
  rfl

theorem addStake_journals (h : s.addStake address amount = .ok s') : Journals s s' := by
  simp only [Store.addStake, bind_ok, refuseIf_ok, exists_const, pure_eq_ok, Except.ok.injEq] at h
  obtain ⟨-, rfl⟩ := h
  refine writeStake_journals fun hzero hmem => ?_
  rw [hzero, UInt64.add_zero, lookup_stakeOf hmem]

theorem subStake_journals (h : s.subStake address amount = .ok s') : Journals s s' := by
  simp only [Store.subStake, bind_ok, refuseIf_ok, exists_const, pure_eq_ok, Except.ok.injEq] at h
  obtain ⟨-, rfl⟩ := h
  refine writeStake_journals fun hzero hmem => ?_
  rw [hzero, UInt64.sub_zero, lookup_stakeOf hmem]

/-- A key at which two maps differ is among the changed ones. -/
private theorem lookup_of_not_changed {ν : Type} [DecidableEq ν] {previous next : GoMap String ν} {key : String}
    (h : key ∉ Store.changedKeys previous next) : next.lookup key = previous.lookup key := by
  by_contra hne
  refine h (Finset.mem_filter.mpr ⟨?_, fun heq => hne heq.symm⟩)
  rw [Finset.mem_union, Finmap.mem_keys, Finmap.mem_keys]
  by_contra hneither
  rw [not_or] at hneither
  exact hne ((Finmap.lookup_eq_none.mpr hneither.2).trans (Finmap.lookup_eq_none.mpr hneither.1).symm)

theorem setValidatorLifecycle_journals [Primitives] {lifecycle : ValidatorLifecycle}
    (h : s.setValidatorLifecycle lifecycle = .ok s') : Journals s s' := by
  simp only [Store.setValidatorLifecycle, bind_ok, pure_eq_ok, Except.ok.injEq] at h
  obtain ⟨_, -, rfl⟩ := h
  refine ⟨fun k hk => ?_, fun k hk => ?_, fun hs => ⟨hs.codes, hs.params⟩⟩
  · cases k with
    | validatorIdentity consensusAddress => exact Finset.mem_union_left _ hk
    | validatorOffence key => exact Finset.mem_union_left _ hk
    | _ => exact hk
  · cases k with
    | validatorIdentity consensusAddress =>
      have hsame := lookup_of_not_changed fun hmem => hk (Finset.mem_union_right _ hmem)
      simp only [flatValue, Store.snapshot, Option.getD_some]
      rw [hsame]
    | validatorOffence key =>
      have hsame := lookup_of_not_changed fun hmem => hk (Finset.mem_union_right _ hmem)
      simp only [flatValue, Store.snapshot, Option.getD_some]
      rw [hsame]
    | _ => rfl

end Edits

section Runs

variable [Primitives] {change : LifecycleChange} {s s' : Store}

theorem edit_journals (h : Edit change s s') : Journals s s' := by
  cases h with
  | addBalance canonical written => exact addBalance_journals written
  | subBalance canonical written => exact subBalance_journals written
  | incrementNonce canonical written => exact incrementNonce_journals written
  | setCodeID canonical trimmed => exact setCodeID_journals _ _ _
  | setDelegatedCodeID canonical => exact setDelegatedCodeID_journals _ _ _
  | setStorage canonical known written => exact setStorage_journals known written
  | deleteStorage canonical => exact deleteStorage_journals _ _ _
  | deleteStoragePrefix canonical => exact deleteStoragePrefix_journals _ _ _
  | setContractCode valid => exact setContractCode_journals _ _
  | addStake canonical written => exact addStake_journals written
  | subStake canonical written => exact subStake_journals written
  | setParam => exact setParam_journals _ _ _
  | setValidatorLifecycle allowed written => exact setValidatorLifecycle_journals written

/-- However many writes were made, the journal names every entry they changed. -/
theorem steps_journals (h : Steps change s s') : Journals s s' := by
  induction h with
  | refl => exact .refl s
  | tail _ edit ih => exact ih.trans (edit_journals edit)

end Runs

end ChainLab.Abci
