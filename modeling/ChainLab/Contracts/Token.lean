import ChainLab.Contracts.Steps

/-! Tokens over sequences of contract calls: what the balances add up to, and what each call moves. -/

namespace ChainLab.Contracts

open ChainLab.Lib ChainLab.Types ChainLab.State ChainLab.State.Store ChainLab.Crypto Action

/-- A contract call as the runtime receives it. -/
structure ContractCall where
  address : String
  caller : String
  method : String
  args : Fields := ∅
  gasLimit : UInt64

/-- `CallMeteredWithLimit`: the call runs on a clone, which replaces the store only when the call succeeds. -/
def callMeteredWithLimit [Primitives] (engine : Engine) (store : Store) (call : ContractCall) :
    Store × UInt64 × Result (List Event) :=
  match callMeteredInTransaction engine store call.address call.caller call.method call.args call.gasLimit with
  | (gasUsed, .ok (working, events)) => (working, gasUsed, .ok events)
  | (gasUsed, .error err) => (store, gasUsed, .error err)

/-- The store after a sequence of calls. -/
def runContractCalls [Primitives] (engine : Engine) (store : Store) (calls : List ContractCall) : Store :=
  calls.foldl (fun store call => (callMeteredWithLimit engine store call).1) store

/-! ### Balances -/

def balanceKey (holder : String) : String := "balance:" ++ holder

/-- The number a stored balance stands for; a text that is not a balance stands for none. -/
def tokenUnits (raw : String) : Nat :=
  match parseTokenBalance raw with
  | .ok value => value.toNat
  | .error _ => 0

/-- What a storage entry adds to the supply. -/
def entryUnits (key value : String) : Nat := if hasPrefix key "balance:" then tokenUnits value else 0

/-- The sum of all stored balances of a token. -/
def tokenSupply (s : Store) (address : String) : Nat := GoMap.total entryUnits (s.account address).storage

/-- The balance of a holder. -/
def tokenHolding (s : Store) (address holder : String) : Nat := tokenUnits (s.getStorage address (balanceKey holder))

/-- Every stored balance is the decimal text of a positive number, under the key of a canonical address. -/
def WellFormedBalances (s : Store) (address : String) : Prop :=
  ∀ key value, (s.account address).storage.lookup key = some value → hasPrefix key "balance:" = true →
    ∃ holder units, key = balanceKey holder ∧ IsCanonicalAddress holder ∧ units ≠ 0 ∧ value = formatUint units

section Balances

variable {s s' : Store} {address holder other : String} {units amount : UInt64}

theorem hasPrefix_balanceKey (holder : String) : hasPrefix (balanceKey holder) "balance:" = true := by
  unfold hasPrefix balanceKey
  rw [runes_eq, runes_eq, String.toList_append]
  exact List.isPrefixOf_iff_prefix.mpr (List.prefix_append _ _)

theorem balanceKey_injective : Function.Injective balanceKey := by
  intro holder other h
  have htexts := congrArg String.toList h
  unfold balanceKey at htexts
  rw [String.toList_append, String.toList_append] at htexts
  exact String.toList_inj.mp (List.append_cancel_left htexts)

theorem tokenUnits_of_parse {raw : String} (h : parseTokenBalance raw = .ok units) : tokenUnits raw = units.toNat := by
  unfold tokenUnits
  rw [h]

theorem tokenUnits_formatUint (units : UInt64) : tokenUnits (formatUint units) = units.toNat := by
  by_cases hzero : units = 0
  · subst hzero
    rfl
  · refine tokenUnits_of_parse ?_
    unfold parseTokenBalance
    rw [if_neg (formatUint_ne_empty units)]
    simp only [bind_ok, require_ok, refuseIf_ok, exists_const, pure_eq_ok, Except.ok.injEq]
    exact ⟨units, parseUint_formatUint units, by simp [hzero], rfl⟩

theorem tokenUnits_of_parseAmount {raw : String} (h : parseAmount raw = .ok amount) :
    raw = formatUint amount ∧ amount ≠ 0 := by
  simp only [parseAmount, bind_ok, refuseIf_ok, require_ok, exists_const, pure_eq_ok, Except.ok.injEq, not_not] at h
  obtain ⟨-, parsed, -, hpositive, hformat, rfl⟩ := h
  exact ⟨hformat.symm, hpositive⟩

/-- A holder's balance is what its entry adds to the supply. -/
theorem weight_balanceKey (s : Store) (address holder : String) :
    GoMap.weight entryUnits (s.account address).storage (balanceKey holder) = tokenHolding s address holder := by
  unfold GoMap.weight tokenHolding Store.getStorage GoMap.get
  cases (s.account address).storage.lookup (balanceKey holder) with
  | none => rfl
  | some value =>
    simp only [Option.elim_some, Option.getD_some, entryUnits, hasPrefix_balanceKey, if_true]

theorem storage_setStorage {key value : String} (h : s.setStorage address key value = .ok s') :
    (s'.account address).storage = (s.account address).storage.insert key value := by
  apply Finmap.ext_lookup
  intro k
  have hstored := stored_setStorage h (normalize address) k
  simp only [true_and] at hstored
  rw [GoMap.lookup_insert_if]
  exact hstored

theorem storage_deleteStorage_eq (s : Store) (address key : String) :
    ((s.deleteStorage address key).account address).storage = (s.account address).storage.erase key := by
  apply Finmap.ext_lookup
  intro k
  have hstored := stored_deleteStorage s address key (normalize address) k
  simp only [true_and] at hstored
  rw [GoMap.lookup_erase_if]
  exact hstored

/-- The balance of one holder is replaced, and the supply follows it. -/
structure Rebalances (address holder : String) (units : Nat) (s s' : Store) : Prop where
  own : tokenHolding s' address holder = units
  others : ∀ other ≠ holder, tokenHolding s' address other = tokenHolding s address other
  supply : tokenSupply s' address + tokenHolding s address holder = tokenSupply s address + units

theorem rebalances_setStorage (h : s.setStorage address (balanceKey holder) (formatUint units) = .ok s') :
    Rebalances address holder units.toNat s s' := by
  have hstorage := storage_setStorage h
  refine ⟨?_, fun other hother => ?_, ?_⟩
  · unfold tokenHolding Store.getStorage
    rw [hstorage, GoMap.get_insert, if_pos rfl, tokenUnits_formatUint]
  · unfold tokenHolding Store.getStorage
    rw [hstorage, GoMap.get_insert, if_neg fun heq => hother (balanceKey_injective heq)]
  · have htotal := GoMap.total_insert entryUnits (s.account address).storage (balanceKey holder) (formatUint units)
    rw [weight_balanceKey] at htotal
    unfold tokenSupply
    rw [hstorage, htotal]
    simp only [entryUnits, hasPrefix_balanceKey, if_true, tokenUnits_formatUint]

theorem rebalances_deleteStorage (s : Store) (address holder : String) :
    Rebalances address holder 0 s (s.deleteStorage address (balanceKey holder)) := by
  have hstorage := storage_deleteStorage_eq s address (balanceKey holder)
  refine ⟨?_, fun other hother => ?_, ?_⟩
  · unfold tokenHolding Store.getStorage
    rw [hstorage, GoMap.get_erase, if_pos rfl]
    rfl
  · unfold tokenHolding Store.getStorage
    rw [hstorage, GoMap.get_erase, if_neg fun heq => hother (balanceKey_injective heq)]
  · have htotal := GoMap.total_erase entryUnits (s.account address).storage (balanceKey holder)
    rw [weight_balanceKey] at htotal
    unfold tokenSupply
    rw [hstorage, htotal, Nat.add_zero]

theorem WellFormedBalances.setStorage (hs : WellFormedBalances s address) {key value : String}
    (h : s.setStorage address key value = .ok s')
    (hentry : hasPrefix key "balance:" = true → ∃ holder units, key = balanceKey holder ∧ IsCanonicalAddress holder ∧
      units ≠ 0 ∧ value = formatUint units) : WellFormedBalances s' address := by
  intro k v hlookup hprefix
  rw [storage_setStorage h, GoMap.lookup_insert_if] at hlookup
  by_cases hk : k = key
  · rw [if_pos hk] at hlookup
    subst hk
    obtain rfl := Option.some.inj hlookup
    exact hentry hprefix
  · rw [if_neg hk] at hlookup
    exact hs k v hlookup hprefix

theorem WellFormedBalances.deleteStorage (hs : WellFormedBalances s address) (key : String) :
    WellFormedBalances (s.deleteStorage address key) address := by
  intro k v hlookup hprefix
  rw [storage_deleteStorage_eq, GoMap.lookup_erase_if] at hlookup
  by_cases hk : k = key
  · rw [if_pos hk] at hlookup
    cases hlookup
  · rw [if_neg hk] at hlookup
    exact hs k v hlookup hprefix

end Balances

/-! ### The native operations -/

section Native

variable {ctx : Context} {i i' : Invocation} {key value : String}

/-- A program that keeps what charges and the storage budget keep leaves the store. -/
theorem store_of_keeps {α : Type} {x : Native α} {outcome : Result α} (hx : ∀ I, Metered I → Action.Keeps I x)
    (h : x i = (outcome, i')) : i'.store = i.store := by
  have hkept := hx (fun i' => i'.store = i.store) (metered_store fun store => store = i.store) i rfl
  rw [h] at hkept
  exact hkept

theorem getStorage_returns (h : ctx.getStorage key i = (.ok value, i')) :
    value = i.store.getStorage ctx.address key ∧ i'.store = i.store := by
  have hkept := store_of_keeps (fun _ hI => getStorage_keeps hI key) h
  simp only [Context.getStorage, bind_run_ok, lift_run_ok, read_run_ok, pure_run_ok] at h
  obtain ⟨_, _, ⟨-, rfl⟩, read, _, ⟨rfl, rfl⟩, _, _, -, _, _, -, _, _, -, rfl, rfl⟩ := h
  exact ⟨rfl, hkept⟩

/-- The checks and charges before a write leave the store. -/
theorem setStorage_returns (h : ctx.setStorage key value i = (.ok (), i')) :
    i.store.setStorage ctx.address key value = .ok i'.store := by
  simp only [Context.setStorage, Context.writeStorage, bind_run_ok, lift_run_ok, read_run_ok, update_run_ok, bind_ok,
    mapError_ok, pure_eq_ok, Except.ok.injEq] at h
  obtain ⟨_, _, ⟨-, rfl⟩, _, _, ⟨-, rfl⟩, _, _, ⟨-, rfl⟩, _, _, ⟨-, rfl⟩, _, _, ⟨-, rfl⟩, _, _, ⟨-, rfl⟩, _, _,
    ⟨-, rfl⟩, _, _, ⟨-, rfl⟩, _, consumed, hconsume, _, charged, hcharge, written, hwrite, rfl⟩ := h
  have hconsumed := store_of_keeps (fun _ hI => consumeNativeStorageBudget_keeps hI _ _ _) hconsume
  have hcharged := store_of_keeps (fun _ hI => chargeNativeLinear_keeps hI _ _ _) hcharge
  rw [← hconsumed, ← hcharged]
  exact hwrite

theorem deleteStorage_returns (h : ctx.deleteStorage key i = (.ok (), i')) :
    i'.store = i.store.deleteStorage ctx.address key := by
  simp only [Context.deleteStorage, bind_run_ok, lift_run_ok, read_run_ok, modify_run_ok] at h
  obtain ⟨_, _, ⟨-, rfl⟩, _, _, ⟨-, rfl⟩, _, _, ⟨-, rfl⟩, _, consumed, hconsume, _, charged, hcharge, rfl⟩ := h
  have hconsumed := store_of_keeps (fun _ hI => consumeNativeStorageBudget_keeps hI _ _ _) hconsume
  have hcharged := store_of_keeps (fun _ hI => chargeNativeLinear_keeps hI _ _ _) hcharge
  rw [← hconsumed, ← hcharged]

variable {holder : String} {units amount : UInt64}

theorem tokenBalance_returns (hlower : toLower holder = holder) (h : tokenBalance ctx holder i = (.ok units, i')) :
    units.toNat = tokenHolding i.store ctx.address holder ∧ i'.store = i.store := by
  simp only [tokenBalance, bind_run_ok, lift_run_ok, hlower] at h
  obtain ⟨raw, _, hread, hparse, rfl⟩ := h
  obtain ⟨rfl, hstore⟩ := getStorage_returns hread
  exact ⟨(tokenUnits_of_parse hparse).symm, hstore⟩

/-- `addTokenBalance` raises the balance by the amount, without wrapping around. -/
theorem addTokenBalance_returns (hlower : toLower holder = holder)
    (h : addTokenBalance ctx holder amount i = (.ok (), i')) :
    Rebalances ctx.address holder (tokenHolding i.store ctx.address holder + amount.toNat) i.store i'.store ∧
      ∃ next, next.toNat = tokenHolding i.store ctx.address holder + amount.toNat ∧
        i.store.setStorage ctx.address (balanceKey holder) (formatUint next) = .ok i'.store := by
  simp only [addTokenBalance, bind_run_ok, lift_run_ok, refuseIf_ok] at h
  obtain ⟨current, _, hread, _, _, ⟨hfits, rfl⟩, hset⟩ := h
  obtain ⟨hcurrent, hstore⟩ := tokenBalance_returns hlower hread
  have hwritten := setStorage_returns hset
  rw [hstore] at hwritten
  have hsum : (current + amount).toNat = tokenHolding i.store ctx.address holder + amount.toNat := by
    rw [maxUint64_sub_lt, Nat.not_le] at hfits
    rw [← hcurrent, toNat_add_of_fits hfits]
  refine ⟨?_, current + amount, hsum, hwritten⟩
  rw [← hsum]
  exact rebalances_setStorage hwritten

/-- `subTokenBalance` lowers the balance by the amount; a balance of zero is removed. -/
theorem subTokenBalance_returns (hlower : toLower holder = holder)
    (h : subTokenBalance ctx holder amount i = (.ok (), i')) :
    amount.toNat ≤ tokenHolding i.store ctx.address holder ∧
      Rebalances ctx.address holder (tokenHolding i.store ctx.address holder - amount.toNat) i.store i'.store ∧
      (i'.store = i.store.deleteStorage ctx.address (balanceKey holder) ∨ ∃ next, next ≠ 0 ∧
        i.store.setStorage ctx.address (balanceKey holder) (formatUint next) = .ok i'.store) := by
  simp only [subTokenBalance, bind_run_ok, lift_run_ok, refuseIf_ok] at h
  obtain ⟨current, read, hread, _, _, ⟨hcovers, rfl⟩, hwrite⟩ := h
  obtain ⟨hcurrent, hstore⟩ := tokenBalance_returns hlower hread
  rw [UInt64.not_lt] at hcovers
  have hdifference : (current - amount).toNat = tokenHolding i.store ctx.address holder - amount.toNat := by
    rw [← hcurrent, UInt64.toNat_sub_of_le _ _ hcovers]
  rw [← hdifference]
  refine ⟨hcurrent ▸ UInt64.le_iff_toNat_le.mp hcovers, ?_⟩
  by_cases hzero : current - amount = 0
  · rw [if_pos hzero] at hwrite
    have hdeleted := deleteStorage_returns hwrite
    rw [hstore] at hdeleted
    refine ⟨?_, .inl hdeleted⟩
    rw [hdeleted, hzero]
    exact rebalances_deleteStorage i.store ctx.address holder
  · rw [if_neg hzero] at hwrite
    have hwritten := setStorage_returns hwrite
    rw [hstore] at hwritten
    exact ⟨rebalances_setStorage hwritten, .inr ⟨_, hzero, hwritten⟩⟩

end Native

/-! ### One call -/

/-- What a successful call of a token does: its owner mints an amount, or its caller moves an amount that it
holds. -/
def TokenStep (address caller method : String) (args : Fields) (s s' : Store) : Prop :=
  ∃ amount : UInt64, amount ≠ 0 ∧ GoMap.get args "amount" = formatUint amount ∧
    IsCanonicalAddress (GoMap.get args "to") ∧
    ((method = "mint" ∧ caller = s.getStorage address "owner" ∧
        tokenSupply s' address = tokenSupply s address + amount.toNat ∧
        ∀ holder, tokenHolding s' address holder =
          tokenHolding s address holder + if holder = GoMap.get args "to" then amount.toNat else 0) ∨
      (method = "transfer" ∧ tokenSupply s' address = tokenSupply s address ∧
        ∀ holder, tokenHolding s' address holder + (if holder = caller then amount.toNat else 0) =
          tokenHolding s address holder + if holder = GoMap.get args "to" then amount.toNat else 0))

section Calls

variable {ctx : Context} {i i' : Invocation} {method : String} {args : Fields} {events : List Event}

theorem Rebalances.credit {s s' : Store} {address dest : String} {amount : Nat}
    (h : Rebalances address dest (tokenHolding s address dest + amount) s s') :
    tokenSupply s' address = tokenSupply s address + amount ∧
      ∀ holder, tokenHolding s' address holder = tokenHolding s address holder + if holder = dest then amount else 0 := by
  have hsupply := h.supply
  refine ⟨by omega, fun holder => ?_⟩
  by_cases hholder : holder = dest
  · rw [hholder, h.own, if_pos rfl]
  · rw [h.others holder hholder, if_neg hholder, Nat.add_zero]

theorem Rebalances.debit {s s' : Store} {address holder : String} {amount : Nat}
    (hcovers : amount ≤ tokenHolding s address holder)
    (h : Rebalances address holder (tokenHolding s address holder - amount) s s') :
    tokenSupply s' address + amount = tokenSupply s address ∧
      ∀ other, tokenHolding s' address other + (if other = holder then amount else 0) = tokenHolding s address other := by
  have hsupply := h.supply
  refine ⟨by omega, fun other => ?_⟩
  by_cases hother : other = holder
  · rw [hother, h.own, if_pos rfl]
    omega
  · rw [h.others other hother, if_neg hother, Nat.add_zero]

/-- The owner a token reads is the stored one. -/
theorem storedTokenOwner_returns {owner : String} (h : storedTokenOwner ctx i = (.ok owner, i')) :
    owner = i.store.getStorage ctx.address "owner" ∧ IsCanonicalAddress owner ∧ i'.store = i.store := by
  simp only [storedTokenOwner, bind_run_ok, lift_run_ok, pure_run_ok, refuseIf_ok, not_not] at h
  obtain ⟨raw, read, hread, _, _, ⟨hcanonical, rfl⟩, rfl, rfl⟩ := h
  obtain ⟨rfl, hstore⟩ := getStorage_returns hread
  exact ⟨rfl, hcanonical, hstore⟩

theorem canonicalTokenAddress_ok {raw address : String} (h : canonicalTokenAddress raw = .ok address) :
    raw = address ∧ IsCanonicalAddress address := by
  simp only [canonicalTokenAddress, bind_ok, refuseIf_ok, exists_const, pure_eq_ok, Except.ok.injEq, not_not] at h
  obtain ⟨hcanonical, rfl⟩ := h
  exact ⟨rfl, hcanonical⟩

/-- An amount written to a holder keeps the balances well formed. -/
private theorem WellFormedBalances.write {s s' : Store} {address holder : String} {next : UInt64}
    (hs : WellFormedBalances s address) (hcanonical : IsCanonicalAddress holder) (hnext : next ≠ 0)
    (h : s.setStorage address (balanceKey holder) (formatUint next) = .ok s') : WellFormedBalances s' address :=
  hs.setStorage h fun _ => ⟨holder, next, rfl, hcanonical, hnext, rfl⟩

private theorem ne_zero_of_toNat_eq {next amount : UInt64} {held : Nat} (hamount : amount ≠ 0)
    (hnext : next.toNat = held + amount.toNat) : next ≠ 0 := by
  rintro rfl
  refine hamount (UInt64.toNat_inj.mp ?_)
  have hzero : (0 : UInt64).toNat = 0 := rfl
  omega

theorem mint_returns (h : TokenContract.mint ctx args i = (.ok events, i')) :
    TokenStep ctx.address ctx.caller "mint" args i.store i'.store ∧
      (WellFormedBalances i.store ctx.address → WellFormedBalances i'.store ctx.address) := by
  simp only [TokenContract.mint, bind_run_ok, lift_run_ok, pure_run_ok, refuseIf_ok, not_not] at h
  obtain ⟨owner, read, howner, _, _, ⟨rfl, rfl⟩, dest, _, ⟨hdest, rfl⟩, amount, _, ⟨hamount, rfl⟩, _, _, hadd, -, rfl⟩ := h
  obtain ⟨hstored, -, hstore⟩ := storedTokenOwner_returns howner
  obtain ⟨rfl, hcanonical⟩ := canonicalTokenAddress_ok hdest
  obtain ⟨htext, hpositive⟩ := tokenUnits_of_parseAmount hamount
  obtain ⟨hbalance, next, hnext, hwritten⟩ := addTokenBalance_returns (toLower_of_canonical hcanonical) hadd
  rw [hstore] at hbalance hnext hwritten
  obtain ⟨hsupply, hholdings⟩ := hbalance.credit
  exact ⟨⟨amount, hpositive, htext, hcanonical, .inl ⟨rfl, hstored, hsupply, hholdings⟩⟩,
    fun hs => hs.write hcanonical (ne_zero_of_toNat_eq hpositive hnext) hwritten⟩

theorem transfer_returns (hcaller : toLower ctx.caller = ctx.caller)
    (h : TokenContract.transfer ctx args i = (.ok events, i')) :
    TokenStep ctx.address ctx.caller "transfer" args i.store i'.store ∧
      (WellFormedBalances i.store ctx.address → WellFormedBalances i'.store ctx.address) := by
  simp only [TokenContract.transfer, bind_run_ok, lift_run_ok, pure_run_ok] at h
  obtain ⟨dest, _, ⟨hdest, rfl⟩, amount, _, ⟨hamount, rfl⟩, _, debited, hsub, _, credited, hadd, -, rfl⟩ := h
  obtain ⟨rfl, hcanonical⟩ := canonicalTokenAddress_ok hdest
  obtain ⟨htext, hpositive⟩ := tokenUnits_of_parseAmount hamount
  obtain ⟨hcovers, hdebit, hwrote⟩ := subTokenBalance_returns hcaller hsub
  obtain ⟨hcredit, next, hnext, hwritten⟩ := addTokenBalance_returns (toLower_of_canonical hcanonical) hadd
  obtain ⟨hsupply₁, hholdings₁⟩ := hdebit.debit hcovers
  obtain ⟨hsupply₂, hholdings₂⟩ := hcredit.credit
  refine ⟨⟨amount, hpositive, htext, hcanonical, .inr ⟨rfl, by omega, fun holder => ?_⟩⟩, fun hs => ?_⟩
  · have hfirst := hholdings₁ holder
    have hsecond := hholdings₂ holder
    omega
  · have hdebited : WellFormedBalances debited.store ctx.address := by
      obtain hdeleted | ⟨left, hleft, hset⟩ := hwrote
      · rw [hdeleted]
        exact hs.deleteStorage _
      · -- the caller holds something, so its key is a canonical address
        have hheld : tokenHolding i.store ctx.address ctx.caller ≠ 0 := by
          have hamountPositive : amount.toNat ≠ 0 := fun hzero => hpositive (UInt64.toNat_inj.mp hzero)
          omega
        cases hlookup : (i.store.account ctx.address).storage.lookup (balanceKey ctx.caller) with
        | none =>
          refine (hheld ?_).elim
          unfold tokenHolding Store.getStorage GoMap.get
          rw [hlookup]
          rfl
        | some value =>
          obtain ⟨holder, units, hkey, hholder, -, -⟩ := hs _ _ hlookup (hasPrefix_balanceKey _)
          rw [← balanceKey_injective hkey] at hholder
          exact hs.write hholder hleft hset
    exact hdebited.write hcanonical (ne_zero_of_toNat_eq hpositive hnext) hwritten

theorem token_call_returns (h : TokenContract.call ctx method args i = (.ok events, i'))
    (hcaller : toLower ctx.caller = ctx.caller) :
    TokenStep ctx.address ctx.caller method args i.store i'.store ∧
      (WellFormedBalances i.store ctx.address → WellFormedBalances i'.store ctx.address) := by
  unfold TokenContract.call at h
  by_cases hmint : method = "mint"
  · rw [if_pos hmint] at h
    rw [hmint]
    exact mint_returns h
  · rw [if_neg hmint] at h
    by_cases htransfer : method = "transfer"
    · rw [if_pos htransfer] at h
      rw [htransfer]
      exact transfer_returns hcaller h
    · rw [if_neg htransfer, fail_run_ok] at h
      exact h.elim

end Calls

/-! ### Calls through the runtime -/

section Runtime

variable [Primitives] {engine : Engine} {s s' : Store} {address other : String} {call : ContractCall}

def tokenCodeID : String := "token.v1"

/-- A call of a token, without the lookup of its code. -/
theorem callContract_token (engine : Engine) (address caller method : String) (args : Fields) :
    callContract engine tokenCodeID address caller method args = (do
      chargeNativeInvocation method args
      let events ← TokenContract.call { address := toLower address, caller := toLower caller } method args
      chargeNativeEvents events
      return events) := rfl

/-- The deployment of a token, without the lookup of its code. -/
theorem deployContract_token (engine : Engine) (creator seed : String) (args : Fields) :
    deployContract engine creator tokenCodeID seed args = (do
      let address := contractAddress creator tokenCodeID seed
      chargeNativeInvocation "deploy" args
      chargeNativeLinear nativeAccountWriteGas nativeStorageWriteByteGas [len tokenCodeID]
      Action.modify fun s => { s with store := s.store.setCodeID address tokenCodeID }
      let events ← TokenContract.deploy { address, caller := toLower creator } args
      let deployed : Event := { type := "contract.deployed", attributes := GoMap.ofList [
        ("address", address), ("code_id", tokenCodeID), ("creator", toLower creator)] }
      chargeNativeEvents (deployed :: events)
      return (address, deployed :: events)) := rfl

omit [Primitives] in
theorem normalize_toLower (address : String) : normalize (toLower address) = normalize address := by
  apply Subtype.ext
  change toLower (trimSpace (toLower address)) = toLower (trimSpace address)
  rw [trimSpace_toLower, toLower_toLower]

omit [Primitives] in
/-- Texts of one address name the same token. -/
theorem TokenStep.congr {caller method : String} {args : Fields} (h : TokenStep address caller method args s s')
    (hsame : normalize address = normalize other) : TokenStep other caller method args s s' := by
  unfold TokenStep tokenSupply tokenHolding Store.getStorage Store.account at h ⊢
  rw [← hsame]
  exact h

omit [Primitives] in
theorem WellFormedBalances.congr (h : WellFormedBalances s address) (hsame : normalize address = normalize other) :
    WellFormedBalances s other := by
  unfold WellFormedBalances Store.account at h ⊢
  rw [← hsame]
  exact h

/-- A call that fails leaves the store; one that succeeds leaves what its contract wrote. -/
theorem callMeteredWithLimit_cases (engine : Engine) (s : Store) (call : ContractCall) :
    (∃ err, (callMeteredWithLimit engine s call).2.2 = .error err ∧ (callMeteredWithLimit engine s call).1 = s) ∨
      ∃ events i', callContract engine (s.codeID call.address) call.address call.caller call.method call.args
          { store := s, meter := { gasLimit := call.gasLimit } } = (.ok events, i') ∧
        (callMeteredWithLimit engine s call).2.2 = .ok events ∧ (callMeteredWithLimit engine s call).1 = i'.store := by
  unfold callMeteredWithLimit callMeteredInTransaction
  by_cases hcode : s.codeID call.address = ""
  · rw [if_pos hcode]
    exact .inl ⟨_, rfl, rfl⟩
  · rw [if_neg hcode]
    obtain ⟨outcome, i'⟩ := callContract engine (s.codeID call.address) call.address call.caller call.method call.args
      { store := s, meter := { gasLimit := call.gasLimit } }
    cases outcome with
    | error err => exact .inl ⟨err, rfl, rfl⟩
    | ok events => exact .inr ⟨events, i', rfl, rfl, rfl⟩

omit [Primitives] in
theorem closedUnderStorage_storageOnly (address : String) (base : Store) :
    ClosedUnderStorage address (StorageOnly (normalize address) Set.univ base) where
  set := fun hs hset => StorageOnly.trans hs ((setStorage_frame hset).mono (Set.subset_univ _))
  delete := fun hs => StorageOnly.trans hs ((deleteStorage_frame _ _ _).mono (Set.subset_univ _))

/-- A call writes the storage of the account it is made to, and nothing else. -/
theorem callMeteredWithLimit_frame (engine : Engine) (s : Store) (call : ContractCall) :
    StorageOnly (normalize call.address) Set.univ s (callMeteredWithLimit engine s call).1 := by
  obtain ⟨-, -, hsame⟩ | ⟨events, i', hrun, -, hstore⟩ := callMeteredWithLimit_cases engine s call
  · rw [hsame]
    exact .refl _ _ s
  · have hclosed := closedUnderStorage_storageOnly (toLower call.address) s
    rw [normalize_toLower] at hclosed
    have hkept := callContract_keeps engine hclosed.admissible (s.codeID call.address) call.caller call.method call.args
      { store := s, meter := { gasLimit := call.gasLimit } } (.refl _ _ s)
    rw [hrun] at hkept
    rw [hstore]
    exact hkept

/-- A successful call of a token. -/
theorem callMeteredWithLimit_token (hcode : s.codeID address = tokenCodeID)
    (haddress : normalize call.address = normalize address) {events : List Event}
    (h : (callMeteredWithLimit engine s call).2.2 = .ok events) :
    TokenStep address (toLower call.caller) call.method call.args s (callMeteredWithLimit engine s call).1 ∧
      (WellFormedBalances s address → WellFormedBalances (callMeteredWithLimit engine s call).1 address) := by
  obtain ⟨err, herr, -⟩ | ⟨events', i', hrun, -, hstore⟩ := callMeteredWithLimit_cases engine s call
  · rw [herr] at h
    cases h
  rw [hstore]
  have hcode' : s.codeID call.address = tokenCodeID := by
    unfold Store.codeID Store.account at hcode ⊢
    rw [haddress]
    exact hcode
  rw [hcode', callContract_token] at hrun
  simp only [bind_run_ok, pure_run_ok] at hrun
  obtain ⟨_, charged, hcharge, events, called, hcall, _, paid, hpay, rfl, rfl⟩ := hrun
  have hcharged := store_of_keeps (fun _ hI => chargeNativeInvocation_keeps hI _ _) hcharge
  have hpaid := store_of_keeps (fun _ hI => chargeNativeEvents_keeps hI _) hpay
  obtain ⟨hstep, hformed⟩ := token_call_returns hcall (toLower_toLower call.caller)
  rw [hcharged] at hstep hformed
  rw [hpaid]
  have hsame : normalize (toLower call.address) = normalize address := (normalize_toLower call.address).trans haddress
  exact ⟨hstep.congr hsame, fun hs => (hformed (hs.congr hsame.symm)).congr hsame⟩

omit [Primitives] in
theorem account_setCodeID (s : Store) (address codeID : String) :
    (s.setCodeID address codeID).account address = { s.account address with codeID } := by
  unfold Store.setCodeID
  split
  · rename_i hsame
    rw [← hsame.2]
  · rw [Store.account, entry_writeAccount, if_pos rfl]

/-- A deployment leaves a token under its code, and the balances under its address as they were. -/
theorem deploy_token {base deployed : Store} {creator seed : String} {args : Fields} {gasLimit gasUsed : UInt64}
    {events : List Event} (h : deployMeteredInTransaction engine base creator tokenCodeID seed args gasLimit =
      (gasUsed, .ok (deployed, address, events))) :
    deployed.codeID address = tokenCodeID ∧
      ∀ key, hasPrefix key "balance:" = true →
        (deployed.account address).storage.lookup key = (base.account address).storage.lookup key := by
  unfold deployMeteredInTransaction at h
  cases hrun : deployContract engine creator tokenCodeID seed args { store := base, meter := { gasLimit } } with
  | mk outcome i' =>
    rw [hrun] at h
    obtain ⟨rfl, rfl⟩ := outcomeOf_ok h
    rw [deployContract_token] at hrun
    simp only [bind_run_ok, modify_run_ok, pure_run_ok, TokenContract.deploy, lift_run_ok, Prod.mk.injEq] at hrun
    obtain ⟨_, invoked, hinvoke, _, charged, hcharge, _, _, rfl, _, written, ⟨_, _, ⟨-, rfl⟩, _, named, hsymbol, _, owned,
      howner, -, rfl⟩, _, paid, hpay, ⟨rfl, -⟩, rfl⟩ := hrun
    have hinvoked := store_of_keeps (fun _ hI => chargeNativeInvocation_keeps hI _ _) hinvoke
    have hcharged := store_of_keeps (fun _ hI => chargeNativeLinear_keeps hI _ _ _) hcharge
    have hpaid := store_of_keeps (fun _ hI => chargeNativeEvents_keeps hI _) hpay
    have hset₁ := setStorage_returns hsymbol
    have hset₂ := setStorage_returns howner
    simp only at hset₁ hset₂
    rw [hcharged, hinvoked] at hset₁
    rw [hpaid]
    refine ⟨?_, fun key hkey => ?_⟩
    · unfold Store.codeID Store.account
      rw [(setStorage_frame hset₂).codeID, (setStorage_frame hset₁).codeID]
      exact congrArg Account.codeID (account_setCodeID base _ _)
    · have hother : ∀ name, hasPrefix name "balance:" = false → key ≠ name := by
        rintro name hname rfl
        rw [hkey] at hname
        cases hname
      rw [storage_setStorage hset₂, GoMap.lookup_insert_if, if_neg (hother "owner" rfl), storage_setStorage hset₁,
        GoMap.lookup_insert_if, if_neg (hother "symbol" rfl), account_setCodeID]

/-- What a call mints: the amount of a successful `mint` call to the token. -/
def mintedBy (engine : Engine) (s : Store) (address : String) (call : ContractCall) : Nat :=
  if normalize call.address = normalize address ∧ call.method = "mint" ∧
      (callMeteredWithLimit engine s call).2.2.isOk = true then
    tokenUnits (GoMap.get call.args "amount")
  else 0

/-- What a sequence of calls mints, each on the store the calls before it leave. -/
def mintedByCalls (engine : Engine) (address : String) : Store → List ContractCall → Nat
  | _, [] => 0
  | s, call :: rest =>
    mintedBy engine s address call + mintedByCalls engine address (callMeteredWithLimit engine s call).1 rest

/-- What a sequence of calls keeps of a token. -/
structure TokenState (s : Store) (address : String) : Prop where
  code : s.codeID address = tokenCodeID
  formed : WellFormedBalances s address

theorem callMeteredWithLimit_other (engine : Engine) (s : Store) (hother : normalize call.address ≠ normalize address) :
    (callMeteredWithLimit engine s call).1.account address = s.account address :=
  (callMeteredWithLimit_frame engine s call).other _ hother.symm

/-- One call keeps a token a token and adds to its supply what it mints. -/
theorem callMeteredWithLimit_supply (engine : Engine) (hs : TokenState s address) (call : ContractCall) :
    TokenState (callMeteredWithLimit engine s call).1 address ∧
      tokenSupply (callMeteredWithLimit engine s call).1 address =
        tokenSupply s address + mintedBy engine s address call := by
  have hcode : (callMeteredWithLimit engine s call).1.codeID address = tokenCodeID :=
    ((callMeteredWithLimit_frame engine s call).codeID (normalize address)).trans hs.code
  by_cases haddress : normalize call.address = normalize address
  · cases houtcome : (callMeteredWithLimit engine s call).2.2 with
    | error err =>
      obtain ⟨_, -, hsame⟩ | ⟨_, _, -, hok, -⟩ := callMeteredWithLimit_cases engine s call
      · have hnone : mintedBy engine s address call = 0 := by
          unfold mintedBy
          rw [houtcome]
          exact if_neg fun h => nomatch h.2.2
        rw [hsame, hnone]
        exact ⟨hs, rfl⟩
      · rw [hok] at houtcome
        cases houtcome
    | ok events =>
      obtain ⟨⟨amount, -, htext, -, heffect⟩, hformed⟩ := callMeteredWithLimit_token hs.code haddress houtcome
      refine ⟨⟨hcode, hformed hs.formed⟩, ?_⟩
      unfold mintedBy
      rw [houtcome]
      obtain ⟨hmint, -, hsupply, -⟩ | ⟨htransfer, hsupply, -⟩ := heffect
      · rw [if_pos ⟨haddress, hmint, rfl⟩, htext, tokenUnits_formatUint]
        exact hsupply
      · rw [if_neg fun h => by rw [h.2.1] at htransfer; exact absurd htransfer (by decide)]
        exact hsupply
  · have hsame := callMeteredWithLimit_other engine s haddress
    refine ⟨⟨hcode, ?_⟩, ?_⟩
    · unfold WellFormedBalances
      rw [hsame]
      exact hs.formed
    · unfold tokenSupply mintedBy
      rw [hsame, if_neg fun h => haddress h.1, Nat.add_zero]

theorem runContractCalls_supply (engine : Engine) (calls : List ContractCall) (hs : TokenState s address) :
    TokenState (runContractCalls engine s calls) address ∧
      tokenSupply (runContractCalls engine s calls) address =
        tokenSupply s address + mintedByCalls engine address s calls := by
  induction calls generalizing s with
  | nil => exact ⟨hs, rfl⟩
  | cons call rest ih =>
    obtain ⟨hnext, hsupply⟩ := callMeteredWithLimit_supply engine hs call
    obtain ⟨hlast, htotal⟩ := ih hnext
    refine ⟨hlast, htotal.trans ?_⟩
    rw [hsupply, Nat.add_assoc]
    rfl

/-- A token that was deployed under an address without balances, after any sequence of contract calls: its
balances are well formed and add up to what its owner minted. A further call that fails leaves the store; one
that succeeds mints or moves exactly its amount; a call to another contract leaves the token's account. -/
theorem token_conservation {base deployed : Store} {creator seed : String} {args : Fields} {gasLimit gasUsed : UInt64}
    {events : List Event} (hdeploy : deployMeteredInTransaction engine base creator tokenCodeID seed args gasLimit =
      (gasUsed, .ok (deployed, address, events)))
    (hnew : ∀ key ∈ (base.account address).storage, hasPrefix key "balance:" = false)
    (calls : List ContractCall) (call : ContractCall) :
    WellFormedBalances (runContractCalls engine deployed calls) address ∧
      tokenSupply (runContractCalls engine deployed calls) address = mintedByCalls engine address deployed calls ∧
      (∀ err, (callMeteredWithLimit engine (runContractCalls engine deployed calls) call).2.2 = .error err →
        (callMeteredWithLimit engine (runContractCalls engine deployed calls) call).1 =
          runContractCalls engine deployed calls) ∧
      (∀ returned, (callMeteredWithLimit engine (runContractCalls engine deployed calls) call).2.2 = .ok returned →
        normalize call.address = normalize address →
        TokenStep address (toLower call.caller) call.method call.args (runContractCalls engine deployed calls)
          (callMeteredWithLimit engine (runContractCalls engine deployed calls) call).1) ∧
      (normalize call.address ≠ normalize address →
        (callMeteredWithLimit engine (runContractCalls engine deployed calls) call).1.account address =
          (runContractCalls engine deployed calls).account address) := by
  obtain ⟨hcode, hbalances⟩ := deploy_token hdeploy
  have hnone : ∀ key, hasPrefix key "balance:" = true → (deployed.account address).storage.lookup key = none := by
    intro key hkey
    rw [hbalances key hkey]
    refine Finmap.lookup_eq_none.mpr fun hmem => ?_
    rw [hnew key hmem] at hkey
    cases hkey
  have hdeployed : TokenState deployed address :=
    ⟨hcode, fun key value hlookup hkey => by rw [hnone key hkey] at hlookup; cases hlookup⟩
  have hzero : tokenSupply deployed address = 0 := by
    unfold tokenSupply
    refine (GoMap.total_congr fun key => ?_).trans (GoMap.total_empty entryUnits)
    unfold GoMap.weight
    by_cases hkey : hasPrefix key "balance:" = true
    · rw [hnone key hkey]
      rfl
    · cases (deployed.account address).storage.lookup key with
      | none => rfl
      | some value => exact if_neg hkey
  obtain ⟨hstate, hsupply⟩ := runContractCalls_supply engine calls hdeployed
  rw [hzero, Nat.zero_add] at hsupply
  refine ⟨hstate.formed, hsupply, fun err herr => ?_, fun returned hok haddress => ?_, fun hother => ?_⟩
  · obtain ⟨_, -, hsame⟩ | ⟨_, _, -, hok, -⟩ := callMeteredWithLimit_cases engine (runContractCalls engine deployed calls) call
    · exact hsame
    · rw [hok] at herr
      cases herr
  · exact (callMeteredWithLimit_token hstate.code haddress hok).1
  · exact callMeteredWithLimit_other engine _ hother

/-- An engine that runs no guests. -/
def noGuests : Engine where
  moduleValidate _ := false
  newModule _ := none
  guest _ _ := .finish 0

omit [Primitives] in
theorem token_conservation_lab : letI := constantPrimitives
    ∃ gasUsed deployed address events, deployMeteredInTransaction noGuests {} constantKeyAddress tokenCodeID "1"
        (GoMap.ofList [("symbol", "LAB")]) 100000 = (gasUsed, .ok (deployed, address, events)) ∧
      ∀ calls, tokenSupply (runContractCalls noGuests deployed calls) address =
        mintedByCalls noGuests address deployed calls := by
  let _ := constantPrimitives
  have hok : (deployMeteredInTransaction noGuests {} constantKeyAddress tokenCodeID "1"
      (GoMap.ofList [("symbol", "LAB")]) 100000).2.isOk = true := by decide +kernel
  cases hdeploy : deployMeteredInTransaction noGuests {} constantKeyAddress tokenCodeID "1"
      (GoMap.ofList [("symbol", "LAB")]) 100000 with
  | mk gasUsed outcome =>
    rw [hdeploy] at hok
    cases outcome with
    | error err => cases hok
    | ok result =>
      obtain ⟨deployed, address, events⟩ := result
      refine ⟨gasUsed, deployed, address, events, rfl, fun calls => ?_⟩
      have hnew : ∀ key ∈ (({} : Store).account address).storage, hasPrefix key "balance:" = false :=
        fun _ hmem => (Finmap.notMem_empty hmem).elim
      exact (token_conservation hdeploy hnew calls { address, caller := "", method := "", gasLimit := 0 }).2.1

end Runtime

end ChainLab.Contracts
