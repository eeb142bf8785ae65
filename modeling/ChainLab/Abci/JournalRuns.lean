import ChainLab.Abci.Delta
import ChainLab.State.Validators

/-! The journal of a store over sequences of calls: what it names is what the flat states differ in, as long
as storage is written under accounts that exist. -/

namespace ChainLab.Abci

open ChainLab.Lib ChainLab.Types ChainLab.Crypto ChainLab.State ChainLab.Proof

/-! ### Journals of the remaining mutators -/

section Mutators

variable {s s' : Store} {address key value codeID : String} {amount nonce : UInt64}

theorem setBalance_journals (s : Store) (address : String) (amount : UInt64) :
    Journals s (s.setBalance address amount) := by
  unfold Store.setBalance
  split
  · exact .refl s
  · exact writeAccount_journals rfl (by simp)

theorem setNonce_journals (s : Store) (address : String) (nonce : UInt64) : Journals s (s.setNonce address nonce) := by
  unfold Store.setNonce
  split
  · exact .refl s
  · exact writeAccount_journals rfl (by simp)

theorem clearDelegation_journals (s : Store) (address : String) : Journals s (s.clearDelegation address) := by
  rw [clearDelegation_eq]
  exact (((setDelegatedCodeID_journals s address "").trans (deleteStorage_journals _ address "owner")).trans
    (deleteStoragePrefix_journals _ address "session:")).trans (deleteStoragePrefix_journals _ address "recovery:")

theorem setProposal_journals (s : Store) (proposal : Proposal) : Journals s (s.setProposal proposal) := by
  unfold Store.setProposal
  simp only
  split
  · exact .refl s
  refine ⟨fun k hk => ?_, fun k hk => ?_, fun hs => ⟨hs.codes, hs.params⟩⟩
  · cases k with
    | proposal id => exact Finset.mem_insert_of_mem hk
    | _ => exact hk
  · cases k with
    | proposal id =>
      have hne : id ≠ trimSpace proposal.id := fun heq => hk (heq ▸ Finset.mem_insert_self _ _)
      simp only [flatValue, Store.snapshot]
      rw [GoMap.lookup_insert_if, if_neg hne]
    | _ => rfl

/-- A write of the validator set is always journalled. -/
theorem writeValidators_journals (s : Store) (validators : List String) :
    Journals s { s with validators, mutations := { s.mutations with validators := true } } := by
  refine ⟨fun k hk => ?_, fun k hk => ?_, fun hs => ⟨hs.codes, hs.params⟩⟩
  · cases k with
    | validators => rfl
    | _ => exact hk
  · cases k with
    | validators => exact (hk rfl).elim
    | _ => rfl

theorem setValidators_journals {validators : List String} (h : s.setValidators validators = .ok s') :
    Journals s s' := by
  simp only [Store.setValidators, bind_ok, refuseIf_ok, exists_const, pure_eq_ok, Except.ok.injEq] at h
  obtain ⟨-, -, next, -, rfl⟩ := h
  exact writeValidators_journals s next.validators

theorem addValidator_journals (h : s.addValidator address = .ok s') : Journals s s' := by
  simp only [Store.addValidator, bind_ok, refuseIf_ok, exists_const, pure_eq_ok, Except.ok.injEq] at h
  obtain ⟨-, -, -, rfl⟩ := h
  exact writeValidators_journals s _

theorem removeValidator_journals (h : s.removeValidator address = .ok s') : Journals s s' := by
  simp only [Store.removeValidator, bind_ok, refuseIf_ok, exists_const, pure_eq_ok, Except.ok.injEq] at h
  obtain ⟨-, -, -, rfl⟩ := h
  exact writeValidators_journals s _

variable [Primitives]

/-- A call that writes storage does so under an account that exists; one that is refused may name any. -/
def KnownAccount (s : Store) : Mutator → Prop
  | .setStorage address key value => ∀ s', s.setStorage address key value = .ok s' → normalize address ∈ s.accounts
  | _ => True

/-- Every mutator journals what it changes, as long as storage is written under an account that exists. -/
theorem mutator_journals (s : Store) (mutator : Mutator) (hknown : KnownAccount s mutator) :
    Journals s (mutator.run s) := by
  cases mutator with
  | setBalance address amount => exact setBalance_journals s address amount
  | addBalance address amount => exact Store.afterCall_rule (.refl s) fun _ => addBalance_journals
  | subBalance address amount => exact Store.afterCall_rule (.refl s) fun _ => subBalance_journals
  | transfer fromAddress toAddress amount =>
    exact Store.afterTransfer_rule (.refl s) (fun _ => subBalance_journals)
      fun _ _ _ hs hadd => hs.trans (addBalance_journals hadd)
  | incrementNonce address => exact Store.afterCall_rule (.refl s) fun _ => incrementNonce_journals
  | setNonce address nonce => exact setNonce_journals s address nonce
  | setCodeID address codeID => exact setCodeID_journals s address codeID
  | setDelegatedCodeID address codeID => exact setDelegatedCodeID_journals s address codeID
  | clearDelegation address => exact clearDelegation_journals s address
  | setStorage address key value => exact Store.afterCall_rule (.refl s) fun s' h => setStorage_journals (hknown s' h) h
  | deleteStorage address key => exact deleteStorage_journals s address key
  | deleteStoragePrefix address keyPrefix => exact deleteStoragePrefix_journals s address keyPrefix
  | setContractCode code => exact setContractCode_journals s code
  | addStake address amount => exact Store.afterCall_rule (.refl s) fun _ => addStake_journals
  | subStake address amount => exact Store.afterCall_rule (.refl s) fun _ => subStake_journals
  | setProposal proposal => exact setProposal_journals s proposal
  | recordVote proposalID voter choice power =>
    refine Store.afterCall_rule (.refl s) fun s' h => ?_
    simp only [Store.recordVote, bind_ok, refuseIf_ok, exists_const, pure_eq_ok, Except.ok.injEq] at h
    obtain ⟨-, rfl⟩ := h
    exact setProposal_journals s _
  | setParam key value => exact setParam_journals s key value
  | setValidators validators => exact Store.afterCall_rule (.refl s) fun _ => setValidators_journals
  | addValidator address => exact Store.afterCall_rule (.refl s) fun _ => addValidator_journals
  | removeValidator address => exact Store.afterCall_rule (.refl s) fun _ => removeValidator_journals
  | initializeValidatorLifecycle identities =>
    refine Store.afterCall_rule (.refl s) fun s' h => ?_
    simp only [Store.initializeValidatorLifecycle, bind_ok, refuseIf_ok, exists_const] at h
    obtain ⟨-, _, -, hset⟩ := h
    exact setValidatorLifecycle_journals hset
  | setValidatorLifecycle lifecycle => exact Store.afterCall_rule (.refl s) fun _ => setValidatorLifecycle_journals

end Mutators

/-! ### Journalled keys -/

/-- An empty key is journalled only where the store still holds an entry under it: accounts and stakes are
never removed, and the other records are refused under an empty key. -/
structure NamedJournal (s : Store) : Prop where
  accounts : ∀ a ∈ s.mutations.accounts, a ∈ s.accounts
  stakes : ∀ a ∈ s.mutations.stakes, a ∈ s.stakes
  codes : "" ∉ s.mutations.contractCodes
  proposals : "" ∉ s.mutations.proposals
  params : "" ∉ s.mutations.params
  identities : "" ∉ s.mutations.validatorIdentities
  offences : "" ∉ s.mutations.validatorOffences
  noIdentity : "" ∉ (s.validatorLifecycle.getD {}).validators
  noOffence : "" ∉ (s.validatorLifecycle.getD {}).offences

section Named

variable {s s' : Store} {address key value codeID : String} {amount : UInt64} {a : Address} {account : Account}

private theorem flatValue_of_mem_accounts (h : a ∈ s.accounts) :
    ∃ v, flatValue s.snapshot (.account a.val) = some v := by
  obtain ⟨old, hold⟩ := Finmap.mem_iff.mp h
  exact ⟨persistedAccountJson old, by simp only [flatValue, Store.snapshot, lookup_byText]; rw [hold]; rfl⟩

private theorem flatValue_of_mem_stakes (h : a ∈ s.stakes) : ∃ v, flatValue s.snapshot (.stake a.val) = some v := by
  obtain ⟨old, hold⟩ := Finmap.mem_iff.mp h
  exact ⟨jsonUint old, by simp only [flatValue, Store.snapshot, lookup_byText]; rw [hold]; rfl⟩

private theorem length_stringBytes_ne_zero {text : String} (h : text ≠ "") : (stringBytes text).length ≠ 0 := by
  intro hzero
  refine h (stringBytes_injective ?_)
  rw [List.length_eq_zero_iff.mp hzero]
  rfl

private theorem length_accountStorage_ne_zero (address key : String) :
    (FlatKey.accountStorage address key).bytes.length ≠ 0 := by
  simp [FlatKey.bytes, PersistedAccountStorageKey.json, utf8Bytes, jsonObject, Char.utf8Size]

/-- Where the store can be flattened, its journal holds no empty key. -/
theorem NamedJournal.bytes (hs : NamedJournal s) {flat : FlatState} (hflat : flattenStateSnapshot s.snapshot = .ok flat)
    {k : FlatKey} (hk : Marks s.mutations k) : k.bytes.length ≠ 0 := by
  cases k with
  | account address =>
    obtain ⟨b, hb, rfl⟩ := hk
    obtain ⟨v, hv⟩ := flatValue_of_mem_accounts (hs.accounts b hb)
    exact bytes_of_flattenStateSnapshot hflat hv
  | accountStorage address key => exact length_accountStorage_ne_zero address key
  | code codeID => exact length_stringBytes_ne_zero fun hempty => hs.codes (hempty ▸ hk)
  | stake address =>
    obtain ⟨b, hb, rfl⟩ := hk
    obtain ⟨v, hv⟩ := flatValue_of_mem_stakes (hs.stakes b hb)
    exact bytes_of_flattenStateSnapshot hflat hv
  | proposal id => exact length_stringBytes_ne_zero fun hempty => hs.proposals (hempty ▸ hk)
  | param key => exact length_stringBytes_ne_zero fun hempty => hs.params (hempty ▸ hk)
  | validators => exact @length_stringBytes_ne_zero flatSingletonKey (by decide)
  | validatorIdentity consensusAddress =>
    exact length_stringBytes_ne_zero fun hempty => hs.identities (hempty ▸ hk)
  | validatorOffence key => exact length_stringBytes_ne_zero fun hempty => hs.offences (hempty ▸ hk)

/-- A store that can be flattened starts with such a journal. -/
theorem namedJournal_of_reset (hreset : s.mutations = {}) {flat : FlatState}
    (hflat : flattenStateSnapshot s.snapshot = .ok flat) : NamedJournal s := by
  have hempty : (stringBytes "").length = 0 := rfl
  refine ⟨?_, ?_, ?_, ?_, ?_, ?_, ?_, fun hmem => ?_, fun hmem => ?_⟩
  any_goals simp [hreset]
  · obtain ⟨identity, hidentity⟩ := Finmap.mem_iff.mp hmem
    have hv : flatValue s.snapshot (.validatorIdentity "") = some identity.json := by
      simp only [flatValue, Store.snapshot]
      rw [hidentity]
      rfl
    exact bytes_of_flattenStateSnapshot hflat hv hempty
  · obtain ⟨offence, hoffence⟩ := Finmap.mem_iff.mp hmem
    have hv : flatValue s.snapshot (.validatorOffence "") = some offence.json := by
      simp only [flatValue, Store.snapshot]
      rw [hoffence]
      rfl
    exact bytes_of_flattenStateSnapshot hflat hv hempty

theorem NamedJournal.writeAccount (hs : NamedJournal s) (a : Address) (account : Account) (mark : Bool) :
    NamedJournal (s.writeAccount a account mark) := by
  have hkept : ∀ b ∈ s.mutations.accounts, b ∈ s.accounts.insert a account := fun b hb =>
    Finmap.mem_insert.mpr (.inr (hs.accounts b hb))
  cases mark with
  | false => exact { hs with accounts := hkept }
  | true =>
    refine { hs with accounts := fun b hb => ?_ }
    rcases Finset.mem_insert.mp hb with rfl | hb
    · exact Finmap.mem_insert.mpr (.inl rfl)
    · exact hkept b hb

theorem NamedJournal.writeStorage (hs : NamedJournal s) (a : Address) (account : Account) (bytes : Option Nat)
    (keys : Finset String) (mark : Bool) : NamedJournal (s.writeStorage a account bytes keys mark) := by
  unfold Store.writeStorage
  refine NamedJournal.writeAccount ?_ a account mark
  cases bytes <;> exact { hs with }

theorem NamedJournal.writeStake (hs : NamedJournal s) (a : Address) (stake amount : UInt64) :
    NamedJournal (s.writeStake a stake amount) := by
  refine { hs with stakes := fun b hb => ?_ }
  have hcases : b = a ∨ b ∈ s.mutations.stakes := by
    simp only [Store.writeStake] at hb
    split at hb
    · exact Finset.mem_insert.mp hb
    · exact .inr hb
  exact Finmap.mem_insert.mpr (hcases.imp id (hs.stakes b))

private theorem notMem_changedKeys {ν : Type} [DecidableEq ν] {previous next : GoMap String ν} (hprevious : key ∉ previous)
    (hnext : key ∉ next) : key ∉ Store.changedKeys previous next := by
  intro hmem
  rcases Finset.mem_union.mp (Finset.mem_filter.mp hmem).1 with hmem | hmem
  · exact hprevious (Finmap.mem_keys.mp hmem)
  · exact hnext (Finmap.mem_keys.mp hmem)

variable [Primitives] {lifecycle : ValidatorLifecycle} {validators : List String}

/-- A lifecycle that passes its checks has no empty key. -/
private theorem named_of_valid (hvalid : validateValidatorLifecycle lifecycle validators = .ok ()) :
    "" ∉ lifecycle.validators ∧ "" ∉ lifecycle.offences := by
  constructor
  · intro hmem
    obtain ⟨identity, hidentity⟩ := Finmap.mem_iff.mp hmem
    obtain ⟨hkey, hchecked⟩ := identity_valid hvalid hidentity
    simp only [validateValidatorIdentity, bind_ok, refuseIf_ok, require_ok, exists_const, not_or, not_not] at hchecked
    obtain ⟨-, _, -, -, -, consensusAddress, hdecode, ⟨hlength, -⟩, -⟩ := hchecked
    rw [← hkey] at hdecode
    cases hdecode
    simp at hlength
  · intro hmem
    simp only [validateValidatorLifecycle, bind_ok, refuseIf_ok, exists_const] at hvalid
    obtain ⟨-, -, -, _, -, _, -, hoffences⟩ := hvalid
    have hchecked := forM_ok.mp hoffences "" (GoMap.mem_sortedKeys.mpr hmem)
    simp only [validateValidatorOffence, bind_ok, refuseIf_ok, exists_const, not_not] at hchecked
    have hkey := congrArg String.toList hchecked.2.1
    simp [validatorOffenceKey] at hkey

theorem NamedJournal.setValidatorLifecycle (hs : NamedJournal s) (h : s.setValidatorLifecycle lifecycle = .ok s') :
    NamedJournal s' := by
  simp only [Store.setValidatorLifecycle, bind_ok, pure_eq_ok, Except.ok.injEq] at h
  obtain ⟨_, hvalid, rfl⟩ := h
  obtain ⟨hidentities, hoffences⟩ := named_of_valid hvalid
  refine { hs with
    identities := fun hmem => ?_
    offences := fun hmem => ?_
    noIdentity := hidentities
    noOffence := hoffences }
  · exact (Finset.mem_union.mp hmem).elim hs.identities (notMem_changedKeys hs.noIdentity hidentities)
  · exact (Finset.mem_union.mp hmem).elim hs.offences (notMem_changedKeys hs.noOffence hoffences)

theorem namedJournal_kept : KeptByWrites NamedJournal where
  writeAccount hs _ := hs.writeAccount _ _ _
  setStorage hs h := by
    simp only [Store.setStorage, bind_ok, refuseIf_ok, exists_const, pure_eq_ok, Except.ok.injEq] at h
    obtain ⟨-, -, -, -, -, rfl⟩ := h
    exact hs.writeStorage _ _ _ _ _
  deleteStorage hs address key := by
    unfold Store.deleteStorage
    simp only
    split
    · exact hs.writeStorage _ _ _ _ _
    · exact hs.writeStorage _ _ _ _ _
  deleteStoragePrefix hs _ _ := hs.writeStorage _ _ _ _ _
  setContractCode hs code := by
    unfold Store.setContractCode
    simp only
    split
    · exact hs
    · rename_i hid
      exact { hs with codes := fun hmem =>
        (Finset.mem_insert.mp hmem).elim (fun heq => hid (.inl heq.symm)) hs.codes }
  writeStake hs _ _ _ := hs.writeStake _ _ _
  setProposal hs proposal := by
    unfold Store.setProposal
    simp only
    split
    · exact hs
    · rename_i hid
      exact { hs with proposals := fun hmem =>
        (Finset.mem_insert.mp hmem).elim (fun heq => hid heq.symm) hs.proposals }
  setParam hs key value := by
    unfold Store.setParam
    simp only
    split
    · exact hs
    · rename_i hid
      exact { hs with params := fun hmem =>
        (Finset.mem_insert.mp hmem).elim (fun heq => hid (.inl heq.symm)) hs.params }
  validators hs _ := { hs with }
  setValidatorLifecycle hs h := hs.setValidatorLifecycle h

end Named

/-! ### Sequences of calls -/

section Runs

variable [Primitives] {base : Store} {previous : FlatState}

/-- Every call of a sequence that writes storage does so under an account of the store it is called on. -/
def StorageKnown : List StoreCall → List Store → Prop
  | [], _ => True
  | call :: rest, stores =>
    (∀ i mutator s, call = .mutate i mutator → stores[i]? = some s → KnownAccount s mutator) ∧
      StorageKnown rest (call.run stores)

/-- What the journal of a store that comes from `base` is good for. -/
structure JournalledFrom (base s : Store) : Prop where
  journals : Journals base s
  named : NamedJournal s

theorem runCalls_journalled (calls : List StoreCall) : ∀ {stores : List Store}, StorageKnown calls stores →
    (∀ s ∈ stores, JournalledFrom base s) → ∀ s ∈ runCalls stores calls, JournalledFrom base s := by
  induction calls with
  | nil => exact fun _ hstores => hstores
  | cons call rest ih =>
    intro stores hknown hstores
    refine ih hknown.2 (StoreCall.run_rule hstores fun i mutator s hcall hs hjournalled => ?_)
    exact ⟨hjournalled.journals.trans (mutator_journals s mutator (hknown.1 i mutator s hcall hs)),
      namedJournal_kept.run hjournalled.named mutator⟩

/-- As long as storage is written under accounts that exist, the journal of every store that the calls lead to
yields the difference between the flat states. -/
theorem flatDelta_of_calls (hreset : base.mutations = {}) (hprevious : flattenStateSnapshot base.snapshot = .ok previous)
    (calls : List StoreCall) (hknown : StorageKnown calls [base]) :
    ∀ store ∈ runCalls [base] calls, ∀ next, flattenStateSnapshot store.snapshot = .ok next →
      flatDeltaFromStoreMutations previous store = .ok (diffFlatState previous next) := by
  intro store hstore next hnext
  have hbase : ∀ s ∈ [base], JournalledFrom base s := by
    intro s hs
    rw [List.mem_singleton.mp hs]
    exact ⟨.refl base, namedJournal_of_reset hreset hprevious⟩
  have hjournalled := runCalls_journalled calls hknown hbase store hstore
  have hcanonical : CanonicalJournal base.mutations := by
    rw [hreset]
    exact ⟨fun _ hmem => (Finset.notMem_empty _ hmem).elim, fun _ hmem => (Finset.notMem_empty _ hmem).elim⟩
  exact flatDelta_eq_diff hjournalled.journals (hjournalled.journals.canonical hcanonical)
    (fun _ hk => hjournalled.named.bytes hnext hk) (flattens_of_ok hprevious) (flattens_of_ok hnext)

omit [Primitives] in
private theorem flatten_empty : ∃ flat, flattenStateSnapshot ({} : Store).snapshot = .ok flat := by
  obtain ⟨flat, hflat, -⟩ := @flattenStateSnapshot_ok ({} : Store).snapshot fun k v hv => by
    cases k with
    | validators => exact @length_stringBytes_ne_zero flatSingletonKey (by decide)
    | _ => cases hv
  exact ⟨flat, hflat⟩

/-- An account is funded, the store cloned, the clone's account given a storage entry, and the store replaced by
its clone. -/
def fundAndStore : List StoreCall :=
  [.mutate 0 (.setBalance "alice" 5), .clone 0, .mutate 1 (.setStorage "alice" "colour" "red"), .replaceWith 0 1]

omit [Primitives] in
theorem flatDelta_of_fundAndStore : letI := constantPrimitives
    ∃ previous, flattenStateSnapshot ({} : Store).snapshot = .ok previous ∧ StorageKnown fundAndStore [{}] ∧
      ∀ store ∈ runCalls [{}] fundAndStore, ∀ next, flattenStateSnapshot store.snapshot = .ok next →
        flatDeltaFromStoreMutations previous store = .ok (diffFlatState previous next) := by
  let _ := constantPrimitives
  obtain ⟨previous, hprevious⟩ := flatten_empty
  have hknown : StorageKnown fundAndStore [{}] := by
    refine ⟨?_, ?_, ?_, ?_, trivial⟩
    · rintro i mutator s ⟨⟩ -
      trivial
    · rintro i mutator s ⟨⟩
    · rintro i mutator s ⟨⟩ ⟨⟩
      exact fun _ _ => Finmap.mem_insert.mpr (.inl rfl)
    · rintro i mutator s ⟨⟩
  exact ⟨previous, hprevious, hknown, flatDelta_of_calls rfl hprevious fundAndStore hknown⟩

omit [Primitives] in
/-- `SetStorage` creates a missing account and journals the slot alone, not the account. -/
theorem setStorage_missing_account {address key value : String} {store : Store} {next : FlatState}
    (hreset : base.mutations = {}) (hprevious : flattenStateSnapshot base.snapshot = .ok previous)
    (hmissing : normalize address ∉ base.accounts) (hset : base.setStorage address key value = .ok store)
    (hnext : flattenStateSnapshot store.snapshot = .ok next) :
    flatDeltaFromStoreMutations previous store ≠ .ok (diffFlatState previous next) := by
  intro hdelta
  let k : FlatKey := .account (normalize address).val
  have hold : previous.lookup k.id = none := by
    rw [(flattens_of_ok hprevious).lookup]
    simp only [k, flatValue, Store.snapshot, lookup_byText]
    rw [Finmap.lookup_eq_none.mpr hmissing]
    rfl
  obtain ⟨hmarks, hcreated⟩ : store.mutations.accounts = base.mutations.accounts ∧ normalize address ∈ store.accounts := by
    simp only [Store.setStorage, bind_ok, refuseIf_ok, exists_const, pure_eq_ok, Except.ok.injEq] at hset
    obtain ⟨-, -, -, -, -, rfl⟩ := hset
    exact ⟨rfl, Finmap.mem_insert.mpr (.inl rfl)⟩
  have hunmarked : ¬Marks store.mutations k := by
    rintro ⟨a, ha, -⟩
    rw [hmarks, hreset] at ha
    exact Finset.notMem_empty a ha
  have hnone : (diffFlatState previous next).1.lookup k.id = none := flatDelta_sets_of_unmarked hdelta hunmarked
  obtain ⟨v, hv⟩ := flatValue_of_mem_accounts hcreated
  rw [lookup_diffFlatState_sets (flattens_of_ok hnext), hv, setEntry, Option.bind_some, hold] at hnone
  cases hnone

omit [Primitives] in
/-- One call of `SetStorage` on an empty store. -/
theorem flatDelta_of_setStorage_alone : letI := constantPrimitives
    ∃ previous store next, flattenStateSnapshot ({} : Store).snapshot = .ok previous ∧
      runCalls [{}] [.mutate 0 (.setStorage "alice" "colour" "red")] = [store] ∧
        flattenStateSnapshot store.snapshot = .ok next ∧
          flatDeltaFromStoreMutations previous store ≠ .ok (diffFlatState previous next) := by
  let _ := constantPrimitives
  obtain ⟨previous, hprevious⟩ := flatten_empty
  obtain ⟨store, hset⟩ : ∃ store, ({} : Store).setStorage "alice" "colour" "red" = .ok store := ⟨_, rfl⟩
  have hnamed : (normalize "").val = "" := rfl
  have hunnamed : store.accounts.lookup (normalize "") = none := by
    cases hset
    rfl
  obtain ⟨next, hnext, -⟩ := @flattenStateSnapshot_ok store.snapshot fun k v hv => by
    cases k with
    | account address =>
      refine length_stringBytes_ne_zero fun hempty => ?_
      simp only [flatValue, Store.snapshot] at hv
      rw [hempty, ← hnamed, lookup_byText, hunnamed] at hv
      cases hv
    | accountStorage address key => exact length_accountStorage_ne_zero address key
    | validators => exact @length_stringBytes_ne_zero flatSingletonKey (by decide)
    | _ =>
      cases hset
      cases hv
  refine ⟨previous, store, next, hprevious, ?_, hnext, ?_⟩
  · cases hset
    rfl
  · exact setStorage_missing_account rfl hprevious Finmap.notMem_empty hset hnext

end Runs

end ChainLab.Abci
