import ChainLab.Abci.Flat

/-! Flat entries are told apart by their ids, flattening succeeds exactly when no key is empty, and a tree
updated at the journalled entries holds the entries of the store. -/

namespace ChainLab.Abci

open ChainLab.Lib ChainLab.Types ChainLab.Crypto ChainLab.State ChainLab.Proof

/-! ### Ids -/

theorem readable_persistedAccountStorageKey : Readable PersistedAccountStorageKey.json :=
  Parts.readable (.cons (.field readable_jsonString "address" PersistedAccountStorageKey.address) <|
    .cons (.field readable_jsonString "key" PersistedAccountStorageKey.key) .nil) (by decide)
    (by
      rintro ⟨⟩ ⟨⟩ ⟨rfl, rfl, -⟩
      rfl)

private theorem FlatKind.name_injective : Function.Injective FlatKind.name := by
  intro a b h
  cases a <;> cases b <;> first | rfl | exact absurd h (by decide)

private theorem takeWhile_name (kind : FlatKind) (rest : List Char) :
    (kind.name.toList ++ ':' :: rest).takeWhile (· ≠ ':') = kind.name.toList := by
  rw [List.takeWhile_append_of_pos]
  · simp
  · cases kind <;> simp [FlatKind.name]

theorem flatStateID_inj {kind kind' : FlatKind} {key key' : List UInt8}
    (h : flatStateID kind key = flatStateID kind' key') : kind = kind' ∧ key = key' := by
  have htext : kind.name.toList ++ ':' :: base64Encode key = kind'.name.toList ++ ':' :: base64Encode key' := by
    have := congrArg String.toList h
    simpa [flatStateID, String.toList_append] using this
  have hname := congrArg (List.takeWhile (· ≠ ':')) htext
  rw [takeWhile_name, takeWhile_name] at hname
  obtain rfl := FlatKind.name_injective (String.toList_inj.mp hname)
  refine ⟨rfl, base64Encode_injective ?_⟩
  exact (List.cons.inj (List.append_cancel_left htext)).2

/-- Entries with the same kind and key bytes are about the same thing. -/
theorem FlatKey.bytes_inj {k k' : FlatKey} (hkind : k.kind = k'.kind) (h : k.bytes = k'.bytes) : k = k' := by
  cases k <;> cases k' <;> simp only [FlatKey.kind, reduceCtorEq] at hkind
  case validators => rfl
  case accountStorage address key address' key' =>
    have hkeys := readable_persistedAccountStorageKey.injective (utf8Bytes_injective h)
    obtain ⟨rfl, rfl⟩ := PersistedAccountStorageKey.mk.inj hkeys
    rfl
  all_goals exact congrArg _ (stringBytes_injective h)

theorem FlatKey.id_injective : Function.Injective FlatKey.id := by
  intro k k' h
  obtain ⟨hkind, hbytes⟩ := flatStateID_inj h
  exact FlatKey.bytes_inj hkind hbytes

/-! ### Entries -/

section Entries

variable {ν : Type} [Inhabited ν] {encode : ν → JsonText} {m : GoMap String ν} {name : String → FlatKey}

private theorem mem_mapEntries {k : FlatKey} {v : JsonText} :
    (k, v) ∈ mapEntries name encode m ↔ ∃ key, k = name key ∧ (m.lookup key).map encode = some v := by
  unfold mapEntries
  simp only [List.mem_map, GoMap.mem_sortedKeys, Prod.mk.injEq]
  constructor
  · rintro ⟨key, hkey, rfl, rfl⟩
    obtain ⟨value, hvalue⟩ := Finmap.mem_iff.mp hkey
    exact ⟨key, rfl, by simp [GoMap.get, hvalue]⟩
  · rintro ⟨key, rfl, hv⟩
    obtain ⟨value, hvalue, rfl⟩ := Option.map_eq_some_iff.mp hv
    exact ⟨key, Finmap.mem_of_lookup_eq_some hvalue, rfl, by simp [GoMap.get, hvalue]⟩

private theorem nodup_mapEntries (hname : Function.Injective name) :
    ((mapEntries name encode m).map Prod.fst).Nodup := by
  unfold mapEntries
  rw [List.map_map]
  exact (GoMap.nodup_sortedKeys m).map hname

private theorem keys_mapEntries {k : FlatKey} (h : k ∈ (mapEntries name encode m).map Prod.fst) :
    ∃ key, k = name key := by
  obtain ⟨⟨k, v⟩, hmem, rfl⟩ := List.mem_map.mp h
  obtain ⟨key, hk, -⟩ := mem_mapEntries.mp hmem
  exact ⟨key, hk⟩

end Entries

private theorem mem_accountEntries {address : String} {account : Account} {k : FlatKey} {v : JsonText} :
    (k, v) ∈ accountEntries address account ↔ (k = .account address ∧ v = persistedAccountJson account) ∨
      ∃ key, k = .accountStorage address key ∧ (account.storage.lookup key).map jsonString = some v := by
  unfold accountEntries
  rw [List.mem_cons, Prod.mk.injEq]
  refine or_congr_right ?_
  exact mem_mapEntries

/-- The entries written are those of the snapshot. -/
theorem mem_flatEntries {snapshot : Snapshot} {k : FlatKey} {v : JsonText} :
    (k, v) ∈ flatEntries snapshot ↔ flatValue snapshot k = some v := by
  have haccounts : (k, v) ∈ (snapshot.accounts.sortedKeys.flatMap fun address =>
      accountEntries address (GoMap.get snapshot.accounts address)) ↔
      ∃ address account, snapshot.accounts.lookup address = some account ∧ (k, v) ∈ accountEntries address account := by
    simp only [List.mem_flatMap, GoMap.mem_sortedKeys]
    constructor
    · rintro ⟨address, haddress, hmem⟩
      obtain ⟨account, haccount⟩ := Finmap.mem_iff.mp haddress
      refine ⟨address, account, haccount, ?_⟩
      simpa [GoMap.get, haccount] using hmem
    · rintro ⟨address, account, haccount, hmem⟩
      refine ⟨address, Finmap.mem_of_lookup_eq_some haccount, ?_⟩
      simpa [GoMap.get, haccount] using hmem
  unfold flatEntries
  rw [List.mem_append, haccounts]
  simp only [List.mem_append, List.mem_cons, mem_mapEntries, mem_accountEntries, Prod.mk.injEq]
  cases k with
  | accountStorage address key =>
    simp [flatValue, Option.bind_eq_some_iff]
  | _ => simp [flatValue, eq_comm]

private theorem nodup_accountEntries (address : String) (account : Account) :
    ((accountEntries address account).map Prod.fst).Nodup := by
  unfold accountEntries
  rw [List.map_cons, List.nodup_cons]
  refine ⟨fun hmem => ?_, nodup_mapEntries fun a b h => (FlatKey.accountStorage.inj h).2⟩
  obtain ⟨key, hkey⟩ := keys_mapEntries hmem
  cases hkey

/-- The position of an entry's kind in the order of writing. -/
private def FlatKey.part : FlatKey → Nat
  | .account _ | .accountStorage _ _ => 0
  | .code _ => 1
  | .stake _ => 2
  | .proposal _ => 3
  | .param _ => 4
  | .validators => 5
  | .validatorIdentity _ => 6
  | .validatorOffence _ => 7

/-- Distinct keys, of the parts from `part` on. -/
private structure FromPart (part : Nat) (keys : List FlatKey) : Prop where
  nodup : keys.Nodup
  le : ∀ k ∈ keys, part ≤ k.part

private theorem FromPart.append {part : Nat} {keys rest : List FlatKey} (hkeys : keys.Nodup)
    (hpart : ∀ k ∈ keys, k.part = part) (hrest : FromPart (part + 1) rest) : FromPart part (keys ++ rest) where
  nodup := by
    refine List.Nodup.append hkeys hrest.nodup fun k hk hkrest => ?_
    have := hpart k hk
    have := hrest.le k hkrest
    omega
  le := by
    intro k hk
    rcases List.mem_append.mp hk with hk | hk
    · exact (hpart k hk).ge
    · exact (Nat.le_succ part).trans (hrest.le k hk)

private theorem FromPart.mapEntries {ν : Type} [Inhabited ν] {encode : ν → JsonText} {m : GoMap String ν}
    {name : String → FlatKey} {part : Nat} {rest : List FlatKey} (hname : Function.Injective name)
    (hpart : ∀ key, (name key).part = part) (hrest : FromPart (part + 1) rest) :
    FromPart part ((Abci.mapEntries name encode m).map Prod.fst ++ rest) := by
  refine .append (nodup_mapEntries hname) (fun k hk => ?_) hrest
  obtain ⟨key, rfl⟩ := keys_mapEntries hk
  exact hpart key

private theorem keys_accountEntries {address : String} {account : Account} {k : FlatKey}
    (h : k ∈ (accountEntries address account).map Prod.fst) :
    k = .account address ∨ ∃ key, k = .accountStorage address key := by
  obtain ⟨⟨k, v⟩, hmem, rfl⟩ := List.mem_map.mp h
  obtain ⟨rfl, -⟩ | ⟨key, rfl, -⟩ := mem_accountEntries.mp hmem
  · exact .inl rfl
  · exact .inr ⟨key, rfl⟩

/-- No entry is written twice. -/
theorem nodup_flatEntries (snapshot : Snapshot) : ((flatEntries snapshot).map Prod.fst).Nodup := by
  have hoffences : FromPart 7 ((mapEntries .validatorOffence ValidatorOffence.json
      (snapshot.validatorLifecycle.getD {}).offences).map Prod.fst ++ []) :=
    .mapEntries (fun _ _ h => FlatKey.validatorOffence.inj h) (fun _ => rfl) ⟨List.nodup_nil, by simp⟩
  rw [List.append_nil] at hoffences
  have haccounts : (snapshot.accounts.sortedKeys.flatMap fun address =>
      (accountEntries address (GoMap.get snapshot.accounts address)).map Prod.fst).Nodup := by
    refine List.nodup_flatMap.mpr ⟨fun address _ => nodup_accountEntries _ _, ?_⟩
    refine (GoMap.nodup_sortedKeys snapshot.accounts).imp fun hne k hk hk' => hne ?_
    obtain rfl | ⟨key, rfl⟩ := keys_accountEntries hk
    · obtain h | ⟨_, h⟩ := keys_accountEntries hk'
      · exact FlatKey.account.inj h
      · cases h
    · obtain h | ⟨_, h⟩ := keys_accountEntries hk'
      · cases h
      · exact (FlatKey.accountStorage.inj h).1
  unfold flatEntries
  simp only [List.map_append, List.map_cons, List.map_flatMap]
  refine (FromPart.append haccounts (fun k hk => ?_) <|
    .mapEntries (fun _ _ h => FlatKey.code.inj h) (fun _ => rfl) <|
    .mapEntries (fun _ _ h => FlatKey.stake.inj h) (fun _ => rfl) <|
    .mapEntries (fun _ _ h => FlatKey.proposal.inj h) (fun _ => rfl) <|
    .mapEntries (fun _ _ h => FlatKey.param.inj h) (fun _ => rfl) <|
    .append (List.nodup_singleton FlatKey.validators) (by simp [FlatKey.part]) <|
    .mapEntries (fun _ _ h => FlatKey.validatorIdentity.inj h) (fun _ => rfl) hoffences).nodup
  obtain ⟨address, -, hk⟩ := List.mem_flatMap.mp hk
  obtain rfl | ⟨key, rfl⟩ := keys_accountEntries hk
  · rfl
  · rfl

/-! ### Flattening -/

/-- What a flat state holds: the entries of a snapshot, each under its id. -/
structure Flattens (snapshot : Snapshot) (flat : FlatState) : Prop where
  lookup : ∀ k : FlatKey, flat.lookup k.id = (flatValue snapshot k).map k.entry
  named : ∀ id ∈ flat, ∃ k : FlatKey, id = k.id

private theorem foldlM_put (entries : List (FlatKey × JsonText)) (hnodup : (entries.map Prod.fst).Nodup) :
    ∀ flat : FlatState, (∀ item ∈ entries, item.1.id ∉ flat) → (∀ item ∈ entries, item.1.bytes.length ≠ 0) →
      ∃ flat', entries.foldlM (fun flat item => putFlatStateValue flat item.1 item.2) flat = .ok flat' ∧
        (∀ item ∈ entries, flat'.lookup item.1.id = some (item.1.entry item.2)) ∧
        ∀ id, (∀ item ∈ entries, item.1.id ≠ id) → flat'.lookup id = flat.lookup id := by
  induction entries with
  | nil => exact fun flat _ _ => ⟨flat, rfl, by simp, by simp⟩
  | cons item rest ih =>
    intro flat hfresh hbytes
    obtain ⟨hnot, hrest⟩ := List.nodup_cons.mp hnodup
    have hput : putFlatStateValue flat item.1 item.2 = .ok (flat.insert item.1.id (item.1.entry item.2)) := by
      simp only [putFlatStateValue, bind_ok, refuseIf_ok, exists_const, pure_eq_ok]
      exact ⟨hbytes item List.mem_cons_self, hfresh item List.mem_cons_self, trivial⟩
    have hne : ∀ other ∈ rest, other.1.id ≠ item.1.id := by
      intro other hother heq
      refine hnot ?_
      rw [← FlatKey.id_injective heq]
      exact List.mem_map_of_mem hother
    obtain ⟨flat', hfold, hset, hother⟩ := ih hrest (flat.insert item.1.id (item.1.entry item.2))
      (fun other hmem => by
        rw [Finmap.mem_insert, not_or]
        exact ⟨hne other hmem, hfresh other (List.mem_cons_of_mem _ hmem)⟩)
      fun other hmem => hbytes other (List.mem_cons_of_mem _ hmem)
    refine ⟨flat', ?_, fun other hmem => ?_, fun id hid => ?_⟩
    · rw [List.foldlM_cons, hput]
      exact hfold
    · rcases List.mem_cons.mp hmem with rfl | hmem
      · rw [hother _ hne, GoMap.lookup_insert_if, if_pos rfl]
      · exact hset other hmem
    · rw [hother id fun other hmem => hid other (List.mem_cons_of_mem _ hmem), GoMap.lookup_insert_if,
        if_neg (hid item List.mem_cons_self).symm]

/-- A snapshot none of whose keys is empty is flattened. -/
theorem flattenStateSnapshot_ok {snapshot : Snapshot}
    (h : ∀ k v, flatValue snapshot k = some v → k.bytes.length ≠ 0) :
    ∃ flat, flattenStateSnapshot snapshot = .ok flat ∧ Flattens snapshot flat := by
  obtain ⟨flat, hflat, hset, hother⟩ := foldlM_put (flatEntries snapshot) (nodup_flatEntries snapshot) ∅
    (fun _ _ => Finmap.notMem_empty)
    fun item hmem => h item.1 item.2 (mem_flatEntries.mp hmem)
  refine ⟨flat, hflat, ⟨fun k => ?_, fun id hid => ?_⟩⟩
  · cases hv : flatValue snapshot k with
    | some v => exact hset (k, v) (mem_flatEntries.mpr hv)
    | none =>
      rw [hother k.id]
      · rfl
      · rintro ⟨k', v⟩ hmem heq
        obtain rfl := FlatKey.id_injective heq
        rw [mem_flatEntries.mp hmem] at hv
        cases hv
  · by_contra hno
    have hnone : flat.lookup id = none := by
      rw [hother id fun item hmem heq => hno ⟨item.1, heq.symm⟩]
      rfl
    exact Finmap.lookup_eq_none.mp hnone hid

/-- Flattening fails at an empty key. -/
theorem bytes_of_flattenStateSnapshot {snapshot : Snapshot} {flat : FlatState}
    (h : flattenStateSnapshot snapshot = .ok flat) {k : FlatKey} {v : JsonText}
    (hv : flatValue snapshot k = some v) : k.bytes.length ≠ 0 := by
  have hloop : ∀ (entries : List (FlatKey × JsonText)) (before : FlatState),
      entries.foldlM (fun flat item => putFlatStateValue flat item.1 item.2) before = .ok flat →
      ∀ item ∈ entries, item.1.bytes.length ≠ 0 := by
    intro entries
    induction entries with
    | nil => simp
    | cons item rest ih =>
      intro before hfold
      rw [List.foldlM_cons, bind_ok] at hfold
      obtain ⟨next, hput, hfold⟩ := hfold
      simp only [putFlatStateValue, bind_ok, refuseIf_ok, exists_const] at hput
      exact List.forall_mem_cons.mpr ⟨hput.1, ih next hfold⟩
  exact hloop _ _ h (k, v) (mem_flatEntries.mpr hv)

theorem flattens_of_ok {snapshot : Snapshot} {flat : FlatState} (h : flattenStateSnapshot snapshot = .ok flat) :
    Flattens snapshot flat := by
  obtain ⟨flat', hflat, hflattens⟩ := flattenStateSnapshot_ok fun k v => bytes_of_flattenStateSnapshot h
  rw [h] at hflat
  cases hflat
  exact hflattens

end ChainLab.Abci
