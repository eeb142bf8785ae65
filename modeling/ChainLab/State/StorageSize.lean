import ChainLab.Lib.Loops
import ChainLab.State.Edits
import ChainLab.State.Mutators

/-! The cached storage size of an account, over sessions of stores that are created, loaded, cloned, replaced
and written. -/

namespace ChainLab.State

open ChainLab.Lib ChainLab.Types ChainLab.Crypto Store

/-- A cached size that agrees with the storage it is about, within the limits. Only an empty storage may go
without one. -/
structure Sized (storage : Fields) (cached : Option Nat) : Prop where
  exact : ∀ bytes, cached = some bytes → bytes = storageSize storage
  missing : cached = none → storage = ∅
  entries : GoMap.len storage ≤ maxStorageEntriesPerAccount
  bytes : storageSize storage ≤ maxStorageBytesPerAccount

/-- Every account's cached size agrees with its storage. -/
def StorageSized (s : Store) : Prop := ∀ a, Sized (s.entry a).storage (s.storageBytes.lookup a)

section Sizes

variable {storage : Fields} {cached : Option Nat} {key value : String}

theorem sized_empty : Sized ∅ none where
  exact _ h := nomatch h
  missing _ := rfl
  entries := by decide
  bytes := by decide

theorem Sized.getD (h : Sized storage cached) : cached.getD 0 = storageSize storage := by
  cases cached with
  | none =>
    rw [h.missing rfl]
    rfl
  | some bytes => exact h.exact bytes rfl

/-- The bytes that a key and its value take. -/
theorem weight_storage (storage : Fields) (key : String) :
    ((storage.lookup key).elim 0 fun previous => len key + len previous) =
      GoMap.weight (fun key value => len key + len value) storage key := rfl

theorem storageSize_insert (storage : Fields) (key value : String) :
    storageSize (storage.insert key value) =
      storageSize storage - ((storage.lookup key).elim 0 fun previous => len key + len previous) +
        (len key + len value) := by
  have htotal := GoMap.total_insert (fun key value => len key + len value) storage key value
  have hle := GoMap.weight_le_total (fun key value => len key + len value) storage key
  rw [weight_storage]
  unfold storageSize
  omega

theorem storageSize_erase (storage : Fields) (key : String) :
    storageSize (storage.erase key) +
      ((storage.lookup key).elim 0 fun previous => len key + len previous) = storageSize storage :=
  GoMap.total_erase (fun key value => len key + len value) storage key

/-- A storage with entries removed, and its size computed from what was removed. -/
theorem Sized.shrink (h : Sized storage cached) {s : Store} {a : Address} (hcached : s.storageBytes.lookup a = cached)
    {remaining : Fields} {deletedBytes : Nat} (hlen : GoMap.len remaining ≤ GoMap.len storage)
    (hsize : storageSize remaining + deletedBytes = storageSize storage) :
    Sized remaining (some (s.storageBytesAfter a deletedBytes remaining)) where
  exact bytes hbytes := by
    rw [← Option.some.inj hbytes]
    unfold storageBytesAfter
    rw [hcached]
    cases cached with
    | none => rfl
    | some current =>
      have hcurrent := h.exact current rfl
      simp only
      split <;> omega
  missing hnone := nomatch hnone
  entries := hlen.trans h.entries
  bytes := by
    have := h.bytes
    omega

end Sizes

/-! ### Writes -/

section Writes

variable {s s' : Store} {a : Address} {account : Account} {address key value codeID : String} {amount : UInt64}

theorem StorageSized.congr (hs : StorageSized s) (haccounts : s'.accounts = s.accounts)
    (hbytes : s'.storageBytes = s.storageBytes) : StorageSized s' := by
  intro a
  unfold Store.entry
  rw [haccounts, hbytes]
  exact hs a

/-- A write of an account that keeps its storage. -/
theorem StorageSized.writeAccount (hs : StorageSized s) {mark : Bool} (hstorage : account.storage = (s.entry a).storage) :
    StorageSized (s.writeAccount a account mark) := by
  intro b
  have hbytes : (s.writeAccount a account mark).storageBytes = s.storageBytes := by cases mark <;> rfl
  rw [entry_writeAccount, hbytes]
  split
  · rename_i hb
    rw [hstorage, ← hb]
    exact hs b
  · exact hs b

/-- A write of an account's storage with its size, if a new one is cached. -/
theorem StorageSized.writeStorage (hs : StorageSized s) {bytes : Option Nat} {keys : Finset String} {mark : Bool}
    (hsized : Sized account.storage (bytes.or (s.storageBytes.lookup a))) :
    StorageSized (s.writeStorage a account bytes keys mark) := by
  intro b
  have hbytes : (s.writeStorage a account bytes keys mark).storageBytes =
      bytes.elim s.storageBytes fun size => s.storageBytes.insert a size := by
    cases bytes <;> cases mark <;> rfl
  have hcached : (s.writeStorage a account bytes keys mark).storageBytes.lookup b =
      if b = a then bytes.or (s.storageBytes.lookup a) else s.storageBytes.lookup b := by
    rw [hbytes]
    cases bytes with
    | none =>
      simp only [Option.elim_none, Option.none_or]
      split
      · rename_i hb
        rw [hb]
      · rfl
    | some size =>
      simp only [Option.elim_some, Option.some_or]
      rw [GoMap.lookup_insert_if]
  rw [entry_writeStorage, hcached]
  by_cases hb : b = a
  · rw [if_pos hb, if_pos hb]
    exact hsized
  · rw [if_neg hb, if_neg hb]
    exact hs b

/-- `SetStorage` fails where the key or the value is out of bounds, or where the storage would exceed a limit
with the entry in it; the cache never makes it fail. -/
theorem setStorage_error_iff (hs : StorageSized s) (address key value : String) :
    (∃ err, s.setStorage address key value = .error err) ↔
      key = "" ∨ len key > maxStorageKeyBytes ∨ len value > maxStorageValueBytes ∨
        GoMap.len ((s.account address).storage.insert key value) > maxStorageEntriesPerAccount ∨
        storageSize ((s.account address).storage.insert key value) > maxStorageBytesPerAccount := by
  have hsized : Sized (s.account address).storage (s.storageBytes.lookup (normalize address)) := hs _
  have hgetD := hsized.getD
  have hentries := hsized.entries
  have hsize := storageSize_insert (s.account address).storage key value
  have hprevious : ((s.account address).storage.lookup key).elim 0 (fun previous => len key + len previous) ≤
      storageSize (s.account address).storage := by
    have := storageSize_erase (s.account address).storage key
    omega
  have hlen : GoMap.len ((s.account address).storage.insert key value) > maxStorageEntriesPerAccount ↔
      key ∉ (s.account address).storage ∧ GoMap.len (s.account address).storage ≥ maxStorageEntriesPerAccount := by
    rw [GoMap.len_insert]
    by_cases hmem : key ∈ (s.account address).storage
    · simp only [hmem, if_true, not_true_eq_false, false_and, iff_false]
      omega
    · simp only [hmem, if_false, not_false_eq_true, true_and]
      omega
  have huncached : ¬(s.storageBytes.lookup (normalize address) = none ∧ GoMap.len (s.account address).storage > 0) := by
    rintro ⟨hnone, hpositive⟩
    have hempty := hsized.missing hnone
    rw [GoMap.len_eq_zero.mpr hempty] at hpositive
    omega
  have hok : (∃ s', s.setStorage address key value = .ok s') ↔
      ¬(key = "" ∨ len key > maxStorageKeyBytes ∨ len value > maxStorageValueBytes) ∧
        ¬GoMap.len ((s.account address).storage.insert key value) > maxStorageEntriesPerAccount ∧
        ¬storageSize ((s.account address).storage.insert key value) > maxStorageBytesPerAccount := by
    simp only [Store.setStorage, bind_ok, refuseIf_ok, exists_const, pure_eq_ok, Except.ok.injEq]
    rw [hlen, hsize, hgetD]
    constructor
    · rintro ⟨_, hbounds, hcount, -, -, hlimit, -⟩
      exact ⟨hbounds, hcount, hlimit⟩
    · rintro ⟨hbounds, hcount, hlimit⟩
      exact ⟨_, hbounds, hcount, huncached, Nat.not_lt.mpr hprevious, hlimit, rfl⟩
  rw [exists_error_iff, hok]
  simp only [not_and_or, not_not, or_assoc]

/-- `SetStorage` writes the entry and the new size. -/
theorem StorageSized.setStorage (hs : StorageSized s) (h : s.setStorage address key value = .ok s') :
    StorageSized s' := by
  have hfits : ¬∃ err, s.setStorage address key value = .error err := by
    rw [h]
    rintro ⟨err, ⟨⟩⟩
  rw [setStorage_error_iff hs] at hfits
  have hgetD : (s.storageBytes.lookup (normalize address)).getD 0 = storageSize (s.account address).storage :=
    (hs (normalize address)).getD
  simp only [Store.setStorage, bind_ok, refuseIf_ok, exists_const, pure_eq_ok, Except.ok.injEq] at h
  obtain ⟨-, -, -, -, -, rfl⟩ := h
  refine hs.writeStorage ⟨fun bytes hbytes => ?_, (fun hnone => nomatch hnone), ?_, ?_⟩
  · rw [← Option.some.inj hbytes, hgetD]
    exact (storageSize_insert _ _ _).symm
  · simp only [not_or] at hfits
    exact Nat.not_lt.mp hfits.2.2.2.1
  · simp only [not_or] at hfits
    exact Nat.not_lt.mp hfits.2.2.2.2

theorem StorageSized.deleteStorage (hs : StorageSized s) (address key : String) :
    StorageSized (s.deleteStorage address key) := by
  have hsized : Sized (s.account address).storage (s.storageBytes.lookup (normalize address)) := hs _
  have hsize := storageSize_erase (s.account address).storage key
  unfold Store.deleteStorage
  simp only
  split
  · rename_i previous hprevious
    rw [hprevious] at hsize
    exact hs.writeStorage (hsized.shrink rfl (GoMap.len_erase_le _ _) hsize)
  · refine hs.writeStorage ?_
    split
    · -- an empty storage gets its size cached
      rename_i hempty
      have hstorage := GoMap.len_eq_zero.mp hempty.2
      exact { hsized with
        exact := fun bytes hbytes => by
          rw [← Option.some.inj hbytes, hstorage]
          rfl
        missing := fun hnone => nomatch hnone }
    · exact hsized

theorem StorageSized.deleteStoragePrefix (hs : StorageSized s) (address keyPrefix : String) :
    StorageSized (s.deleteStoragePrefix address keyPrefix) := by
  have hsized : Sized (s.account address).storage (s.storageBytes.lookup (normalize address)) := hs _
  refine hs.writeStorage (hsized.shrink rfl (GoMap.len_filterKeys_le _ _) ?_)
  have hsplit := GoMap.total_filterKeys (fun key value => len key + len value) (fun key => hasPrefix key keyPrefix)
    (s.account address).storage
  rw [Nat.add_comm] at hsplit
  exact hsplit

theorem storageSized_kept [Primitives] : KeptByWrites StorageSized where
  writeAccount hs hstorage := hs.writeAccount hstorage
  setStorage := StorageSized.setStorage
  deleteStorage := StorageSized.deleteStorage
  deleteStoragePrefix := StorageSized.deleteStoragePrefix
  setContractCode hs _ := ite_rule hs (hs.congr rfl rfl)
  writeStake hs _ _ _ := hs.congr rfl rfl
  setProposal hs _ := ite_rule hs (hs.congr rfl rfl)
  setParam hs _ _ := ite_rule hs (hs.congr rfl rfl)
  validators hs _ := hs.congr rfl rfl
  setValidatorLifecycle hs h := by
    simp only [Store.setValidatorLifecycle, bind_ok, pure_eq_ok, Except.ok.injEq] at h
    obtain ⟨_, -, rfl⟩ := h
    exact hs.congr rfl rfl

end Writes

/-! ### Stores made from snapshots -/

section Loading

/-- The storage loop counts the entries it has seen, and ends within the limit. -/
private theorem scanSnapshotStorage_total {address : String} {storage : Fields} (keys : List String) :
    ∀ {start bytes : Nat}, start ≤ maxStorageBytesPerAccount →
      keys.foldlM (scanSnapshotStorage address storage) start = .ok bytes →
      bytes = start + (keys.map fun key => len key + len (GoMap.get storage key)).sum ∧
        bytes ≤ maxStorageBytesPerAccount := by
  induction keys with
  | nil =>
    intro start bytes hstart hfold
    cases hfold
    exact ⟨rfl, hstart⟩
  | cons key rest ih =>
    intro start bytes hstart hfold
    rw [List.foldlM_cons, bind_ok] at hfold
    obtain ⟨next, hround, hfold⟩ := hfold
    simp only [scanSnapshotStorage, bind_ok, refuseIf_ok, exists_const, pure_eq_ok, Except.ok.injEq, not_or,
      Nat.not_lt] at hround
    obtain ⟨-, hlimit, rfl⟩ := hround
    obtain ⟨hbytes, hle⟩ := ih hlimit.2 hfold
    rw [List.map_cons, List.sum_cons]
    exact ⟨by omega, hle⟩

private theorem sum_sortedKeys (storage : Fields) :
    (storage.sortedKeys.map fun key => len key + len (GoMap.get storage key)).sum = storageSize storage := by
  have hkeys : storage.sortedKeys.toFinset = storage.keys := by
    ext key
    rw [List.mem_toFinset, GoMap.mem_sortedKeys, Finmap.mem_keys]
  unfold storageSize
  rw [GoMap.total_eq_sum_keys _ storage subset_rfl, ← List.sum_toFinset _ (GoMap.nodup_sortedKeys storage), hkeys]
  refine Finset.sum_congr rfl fun key hkey => ?_
  obtain ⟨value, hvalue⟩ := Finmap.mem_iff.mp (Finmap.mem_keys.mp hkey)
  unfold GoMap.get GoMap.weight
  rw [hvalue]
  rfl

theorem loadAccount_sized {accounts : GoMap String Account} {s s' : Store} {address : String} (hs : StorageSized s)
    (h : loadAccount accounts s address = .ok s') : StorageSized s' := by
  simp only [loadAccount, bind_ok, refuseIf_ok, exists_const, pure_eq_ok, Except.ok.injEq] at h
  obtain ⟨-, -, -, hentries, bytes, hfold, rfl⟩ := h
  obtain ⟨hbytes, hlimit⟩ := scanSnapshotStorage_total _ (Nat.zero_le _) hfold
  rw [Nat.zero_add, sum_sortedKeys] at hbytes
  intro a
  unfold Store.entry
  rw [GoMap.lookup_insert_if, GoMap.lookup_insert_if]
  by_cases ha : a = normalize address
  · rw [if_pos ha, if_pos ha]
    refine ⟨fun cached hcached => ?_, fun hnone => ?_, Nat.not_lt.mp hentries, hbytes ▸ hlimit⟩
    · exact (Option.some.inj hcached).symm.trans hbytes
    · cases hnone
  · rw [if_neg ha, if_neg ha]
    exact hs a

private theorem loadStakes_sized (stakes : GoMap String UInt64) (keys : List String) {store : Store}
    (hs : StorageSized store) :
    StorageSized (keys.foldl (fun (store : Store) address => { store with
      stakes := store.stakes.insert (normalize address) (GoMap.get stakes address) }) store) := by
  induction keys generalizing store with
  | nil => exact hs
  | cons key rest ih => exact ih (hs.congr rfl rfl)

theorem storageSized_new : StorageSized ({} : Store) := fun _ => sized_empty

/-- The sizes of a store made from a snapshot are those of the snapshot's storage. -/
theorem newStoreFromSnapshot_sized [Primitives] {snapshot : Snapshot} {s : Store}
    (h : newStoreFromSnapshot snapshot = .ok s) : StorageSized s := by
  simp only [newStoreFromSnapshot, bind_ok, pure_eq_ok] at h
  obtain ⟨_, -, withAccounts, haccounts, withCodes, hcodes, _, -, withProposals, hproposals, withParams, hparams,
    validators, -, hlifecycle⟩ := h
  have hsized₁ : StorageSized withAccounts :=
    foldlM_keeps StorageSized _ (fun _ _ _ _ hs hload => loadAccount_sized hs hload) storageSized_new haccounts
  have hsized₂ : StorageSized withCodes := by
    refine foldlM_keeps StorageSized _ (fun b key b' _ hs hload => ?_) hsized₁ hcodes
    simp only [loadCode, bind_ok, refuseIf_ok, mapError_ok, exists_const, pure_eq_ok, Except.ok.injEq] at hload
    obtain ⟨_, -, _, -, -, -, _, -, rfl⟩ := hload
    exact hs.congr rfl rfl
  have hsized₃ : StorageSized withProposals := by
    refine foldlM_keeps StorageSized _ (fun b key b' _ hs hload => ?_) (loadStakes_sized _ _ hsized₂) hproposals
    simp only [loadProposal, bind_ok, refuseIf_ok, mapError_ok, exists_const, pure_eq_ok, Except.ok.injEq] at hload
    obtain ⟨_, -, _, -, -, -, _, -, rfl⟩ := hload
    exact hs.congr rfl rfl
  have hsized₄ : StorageSized withParams := by
    refine foldlM_keeps StorageSized _ (fun b key b' _ hs hload => ?_) hsized₃ hparams
    simp only [loadParam, bind_ok, pure_eq_ok, Except.ok.injEq] at hload
    obtain ⟨_, -, rfl⟩ := hload
    exact hs.congr rfl rfl
  have hsized₅ : StorageSized { withParams with validators } := hsized₄.congr rfl rfl
  cases hsnapshot : snapshot.validatorLifecycle with
  | none =>
    simp only [hsnapshot, bind_ok, Except.ok.injEq] at hlifecycle
    obtain ⟨_, rfl, rfl⟩ := hlifecycle
    exact hsized₅.congr rfl rfl
  | some lifecycle =>
    simp only [hsnapshot, bind_ok, mapError_ok, Except.ok.injEq] at hlifecycle
    obtain ⟨loaded, hset, rfl⟩ := hlifecycle
    exact (storageSized_kept.setValidatorLifecycle hsized₅ hset).congr rfl rfl

end Loading

/-! ### Sessions -/

section Sessions

variable [Primitives] {stores : List Store}

/-- The stores that a program can hold: new ones, ones made from snapshots, and what calls make of them. -/
inductive StoreSession : List Store → Prop
  | empty : StoreSession []
  | new {stores : List Store} (earlier : StoreSession stores) : StoreSession (stores ++ [({} : Store)])
  | load {stores : List Store} {snapshot : Snapshot} {s : Store} (earlier : StoreSession stores)
      (loaded : newStoreFromSnapshot snapshot = .ok s) : StoreSession (stores ++ [s])
  | call {stores : List Store} (earlier : StoreSession stores) (call : StoreCall) : StoreSession (call.run stores)

theorem StoreSession.calls (h : StoreSession stores) (calls : List StoreCall) : StoreSession (runCalls stores calls) := by
  induction calls generalizing stores with
  | nil => exact h
  | cons call rest ih => exact ih (h.call call)

theorem StoreSession.sized (h : StoreSession stores) : ∀ s ∈ stores, StorageSized s := by
  have happend : ∀ {stores : List Store} {s : Store}, (∀ old ∈ stores, StorageSized old) → StorageSized s →
      ∀ old ∈ stores ++ [s], StorageSized old := by
    intro stores s hstores hs old hold
    rcases List.mem_append.mp hold with hold | hold
    · exact hstores old hold
    · rw [List.mem_singleton.mp hold]
      exact hs
  induction h with
  | empty => exact fun _ hs => nomatch hs
  | new _ ih => exact happend ih storageSized_new
  | load _ loaded ih => exact happend ih (newStoreFromSnapshot_sized loaded)
  | call _ call ih => exact StoreCall.run_rule ih fun _ mutator _ _ _ hs => storageSized_kept.run hs mutator

/-- In every store of a session and for every account, a non-empty storage has its exact size cached and stays
within its limits, and `SetStorage` fails exactly where the storage with the new entry would not. -/
theorem storage_accounting (h : StoreSession stores) {s : Store} (hs : s ∈ stores) (address : String) :
    ((s.account address).storage ≠ ∅ →
        s.storageBytes.lookup (normalize address) = some (storageSize (s.account address).storage)) ∧
      GoMap.len (s.account address).storage ≤ maxStorageEntriesPerAccount ∧
      storageSize (s.account address).storage ≤ maxStorageBytesPerAccount ∧
      ∀ key value, (∃ err, s.setStorage address key value = .error err) ↔
        key = "" ∨ len key > maxStorageKeyBytes ∨ len value > maxStorageValueBytes ∨
          GoMap.len ((s.account address).storage.insert key value) > maxStorageEntriesPerAccount ∨
          storageSize ((s.account address).storage.insert key value) > maxStorageBytesPerAccount := by
  have hstore := h.sized s hs
  have hsized : Sized (s.account address).storage (s.storageBytes.lookup (normalize address)) := hstore _
  refine ⟨fun hnonempty => ?_, hsized.entries, hsized.bytes, setStorage_error_iff hstore address⟩
  cases hcached : s.storageBytes.lookup (normalize address) with
  | none => exact (hnonempty (hsized.missing hcached)).elim
  | some bytes => rw [hsized.exact bytes hcached]

omit [Primitives] in
/-- A new store with one entry, its clone, and the clone without that entry. -/
theorem storage_accounting_clone : letI := constantPrimitives
    let calls := [StoreCall.mutate 0 (.setStorage "alice" "colour" "red"), .clone 0,
      .mutate 1 (.deleteStoragePrefix "alice" "col")]
    StoreSession (runCalls [{}] calls) ∧ ∀ s ∈ runCalls [{}] calls,
      GoMap.len (s.account "alice").storage ≤ maxStorageEntriesPerAccount ∧
      storageSize (s.account "alice").storage ≤ maxStorageBytesPerAccount := by
  let _ := constantPrimitives
  intro calls
  have hsession : StoreSession (runCalls [{}] calls) := (StoreSession.new .empty).calls calls
  refine ⟨hsession, fun s hs => ?_⟩
  obtain ⟨-, hentries, hbytes, -⟩ := storage_accounting hsession hs "alice"
  exact ⟨hentries, hbytes⟩

end Sessions

end ChainLab.State
