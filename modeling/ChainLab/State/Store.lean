import ChainLab.Crypto.Keys

/-! The account store: balances, nonces, contract storage, stakes, parameters and validators. -/

namespace ChainLab.State

open ChainLab.Lib ChainLab.Types ChainLab.Crypto

def maxStorageEntriesPerAccount : Nat := 4096
def maxStorageKeyBytes : Nat := 256
def maxStorageValueBytes : Nat := 64 * 1024
def maxStorageBytesPerAccount : Nat := 8 * 1024 * 1024

/-- An account key: a text that `normalize` leaves alone. Every map of the store is keyed by these. -/
abbrev Address := { address : String // toLower (trimSpace address) = address }

/-- `normalize`. -/
def normalize (address : String) : Address :=
  ⟨toLower (trimSpace address), toLower_trimSpace_idem address⟩

/-- The keys written since the last durable commit. -/
structure MutationTracker where
  accounts : Finset Address := ∅
  accountStorage : Finset (Address × String) := ∅
  contractCodes : Finset String := ∅
  stakes : Finset Address := ∅
  proposals : Finset String := ∅
  params : Finset String := ∅
  validators : Bool := false
  validatorIdentities : Finset String := ∅
  validatorOffences : Finset String := ∅
  deriving DecidableEq, Inhabited

structure Store where
  accounts : GoMap Address Account := ∅
  storageBytes : GoMap Address Nat := ∅
  codes : GoMap String ContractCode := ∅
  stakes : GoMap Address UInt64 := ∅
  proposals : GoMap String Proposal := ∅
  params : GoMap String String := ∅
  validators : List String := []
  validatorLifecycle : Option ValidatorLifecycle := none
  mutations : MutationTracker := {}
  deriving DecidableEq, Inhabited

namespace Store

def markAccount (s : Store) (address : Address) : Store :=
  { s with mutations := { s.mutations with accounts := insert address s.mutations.accounts } }

def markAccountStorage (s : Store) (address : Address) (keys : Finset String) : Store :=
  { s with mutations := { s.mutations with
      accountStorage := s.mutations.accountStorage ∪ keys.image fun key => (address, key) } }

/-- The account under a key: a missing account reads as an empty one under its own address. -/
def entry (s : Store) (a : Address) : Account := (s.accounts.lookup a).getD { address := a.val }

/-- `account`. -/
abbrev account (s : Store) (address : String) : Account := s.entry (normalize address)

/-- `GetAccount`. -/
abbrev getAccount (s : Store) (address : String) : Account := s.account address

/-- `s.accounts[address] = account`, journalled when `mark` is set. -/
def writeAccount (s : Store) (address : Address) (account : Account) (mark : Bool) : Store :=
  let written := { s with accounts := s.accounts.insert address account }
  if mark then written.markAccount address else written

/-- `AddBalance`. -/
def addBalance (s : Store) (address : String) (amount : UInt64) : Result Store := do
  let account := s.account address
  refuseIf (maxUint64 - account.balance < amount) (newError "balance overflow")
  return s.writeAccount (normalize address) { account with balance := account.balance + amount }
    (amount ≠ 0 ∨ normalize address ∉ s.accounts)

/-- `SubBalance`. -/
def subBalance (s : Store) (address : String) (amount : UInt64) : Result Store := do
  let account := s.account address
  refuseIf (account.balance < amount) (newError "insufficient funds")
  return s.writeAccount (normalize address) { account with balance := account.balance - amount }
    (amount ≠ 0 ∨ normalize address ∉ s.accounts)

/-- `Transfer`. The debit is undone when the credit overflows; the caller drops the store then. -/
def transfer (s : Store) (fromAddress toAddress : String) (amount : UInt64) : Result Store :=
  if amount = 0 then .ok s
  else do
    let debited ← s.subBalance fromAddress amount
    debited.addBalance toAddress amount

/-- `IncrementNonce`. -/
def incrementNonce (s : Store) (address : String) : Result Store := do
  let account := s.account address
  refuseIf (account.nonce = maxUint64) (newError "nonce overflow")
  return s.writeAccount (normalize address) { account with nonce := account.nonce + 1 } true

/-- `SetBalance`. -/
def setBalance (s : Store) (address : String) (amount : UInt64) : Store :=
  if normalize address ∈ s.accounts ∧ (s.account address).balance = amount then s
  else s.writeAccount (normalize address) { s.account address with balance := amount } true

/-- `SetNonce`. -/
def setNonce (s : Store) (address : String) (nonce : UInt64) : Store :=
  if normalize address ∈ s.accounts ∧ (s.account address).nonce = nonce then s
  else s.writeAccount (normalize address) { s.account address with nonce } true

/-- `SetCodeID`. -/
def setCodeID (s : Store) (address codeID : String) : Store :=
  if normalize address ∈ s.accounts ∧ (s.account address).codeID = codeID then s
  else s.writeAccount (normalize address) { s.account address with codeID } true

/-- `CodeID`. -/
def codeID (s : Store) (address : String) : String := (s.account address).codeID

/-- `SetDelegatedCodeID`. -/
def setDelegatedCodeID (s : Store) (address codeID : String) : Store :=
  if normalize address ∈ s.accounts ∧ (s.account address).delegatedCodeID = trimSpace codeID then s
  else s.writeAccount (normalize address) { s.account address with delegatedCodeID := trimSpace codeID } true

/-- `storageSize`. -/
def storageSize (storage : Fields) : Nat := GoMap.total (fun key value => len key + len value) storage

/-- `GetStorage`. -/
def getStorage (s : Store) (address key : String) : String := GoMap.get (s.account address).storage key

/-- `HasStorage`. -/
def hasStorage (s : Store) (address key : String) : Bool := key ∈ (s.account address).storage

/-- `StorageEntryCount`. -/
def storageEntryCount (s : Store) (address : String) : Nat := GoMap.len (s.account address).storage

/-- `SortedStorageKeys`. -/
def sortedStorageKeys (s : Store) (address : String) : List String :=
  GoMap.sortedKeys (s.account address).storage

/-- An account's storage and its cached size, written together. -/
def writeStorage (s : Store) (address : Address) (account : Account) (storageBytes : Option Nat)
    (keys : Finset String) (mark : Bool) : Store :=
  let sized := storageBytes.elim s fun bytes =>
    { s with storageBytes := s.storageBytes.insert address bytes }
  (sized.markAccountStorage address keys).writeAccount address account mark

/-- `SetStorage`. An account with entries but no cached size is refused. -/
def setStorage (s : Store) (address key value : String) : Result Store := do
  refuseIf (key = "" ∨ len key > maxStorageKeyBytes ∨ len value > maxStorageValueBytes)
    (sentinelError .storageLimit)
  let account := s.account address
  refuseIf (key ∉ account.storage ∧ GoMap.len account.storage ≥ maxStorageEntriesPerAccount)
    (sentinelError .storageLimit)
  let cached := s.storageBytes.lookup (normalize address)
  refuseIf (cached = none ∧ GoMap.len account.storage > 0) (sentinelError .storageLimit)
  let storageBytes := cached.getD 0
  let previousBytes := (account.storage.lookup key).elim 0 fun previous => len key + len previous
  refuseIf (storageBytes < previousBytes) (sentinelError .storageLimit)
  let nextEntryBytes := len key + len value
  refuseIf (storageBytes - previousBytes + nextEntryBytes > maxStorageBytesPerAccount)
    (sentinelError .storageLimit)
  return s.writeStorage (normalize address) { account with storage := account.storage.insert key value }
    (some (storageBytes - previousBytes + nextEntryBytes)) {key} false

/-- The cached size of an account after entries of `deletedBytes` were removed: a cache that cannot
cover them is replaced by the size of what remains. -/
def storageBytesAfter (s : Store) (address : Address) (deletedBytes : Nat) (remaining : Fields) : Nat :=
  match s.storageBytes.lookup address with
  | some current => if deletedBytes ≤ current then current - deletedBytes else storageSize remaining
  | none => storageSize remaining

/-- `DeleteStorage`. -/
def deleteStorage (s : Store) (address key : String) : Store :=
  let account := s.account address
  let remaining := account.storage.erase key
  let mark : Bool := normalize address ∉ s.accounts
  match account.storage.lookup key with
  | some previous =>
    s.writeStorage (normalize address) { account with storage := remaining }
      (some (s.storageBytesAfter (normalize address) (len key + len previous) remaining)) {key} mark
  | none =>
    s.writeStorage (normalize address) account
      (if s.storageBytes.lookup (normalize address) = none ∧ GoMap.len account.storage = 0 then some 0
        else none) ∅ mark

/-- `DeleteStoragePrefix`. -/
def deleteStoragePrefix (s : Store) (address keyPrefix : String) : Store :=
  let account := s.account address
  let removed := GoMap.filterKeys (fun key => hasPrefix key keyPrefix) account.storage
  let remaining := GoMap.filterKeys (fun key => !hasPrefix key keyPrefix) account.storage
  s.writeStorage (normalize address) { account with storage := remaining }
    (some (s.storageBytesAfter (normalize address) (storageSize removed) remaining)) removed.keys
    (normalize address ∉ s.accounts)

/-- `ClearDelegation`. -/
def clearDelegation (s : Store) (address : String) : Store :=
  let account := s.account address
  let cleared :=
    if normalize address ∉ s.accounts ∨ account.delegatedCodeID ≠ "" then
      s.writeAccount (normalize address) { account with delegatedCodeID := "" } true
    else s
  ((cleared.deleteStorage address "owner").deleteStoragePrefix address "session:").deleteStoragePrefix
    address "recovery:"

/-- `SetContractCode`. -/
def setContractCode (s : Store) (code : ContractCode) : Store :=
  let code := { code with codeID := trimSpace code.codeID }
  if code.codeID = "" ∨ s.codes.lookup code.codeID = some code then s
  else { s with
    codes := s.codes.insert code.codeID code
    mutations := { s.mutations with contractCodes := insert code.codeID s.mutations.contractCodes } }

/-- `ContractCode`. -/
def contractCode (s : Store) (codeID : String) : Option ContractCode := s.codes.lookup (trimSpace codeID)

/-- `s.stakes[address] = stake`, journalled when `amount` is not zero or the entry is new. -/
def writeStake (s : Store) (address : Address) (stake amount : UInt64) : Store :=
  { s with
    stakes := s.stakes.insert address stake
    mutations := { s.mutations with stakes :=
      if amount ≠ 0 ∨ address ∉ s.stakes then insert address s.mutations.stakes else s.mutations.stakes } }

/-- `StakeOf`. -/
def stakeOf (s : Store) (address : String) : UInt64 := (s.stakes.lookup (normalize address)).getD 0

/-- `AddStake`. -/
def addStake (s : Store) (address : String) (amount : UInt64) : Result Store := do
  refuseIf (maxUint64 - s.stakeOf address < amount) (newError "stake overflow")
  return s.writeStake (normalize address) (s.stakeOf address + amount) amount

/-- `SubStake`. -/
def subStake (s : Store) (address : String) (amount : UInt64) : Result Store := do
  refuseIf (s.stakeOf address < amount) (newError "insufficient stake")
  return s.writeStake (normalize address) (s.stakeOf address - amount) amount

/-- `SetParam`. -/
def setParam (s : Store) (key value : String) : Store :=
  let key := trimSpace key
  if key = "" ∨ s.params.lookup key = some value then s
  else { s with
    params := s.params.insert key value
    mutations := { s.mutations with params := insert key s.mutations.params } }

/-- `Param`. -/
def param (s : Store) (key : String) : String := GoMap.get s.params (trimSpace key)

/-- `Proposal`. -/
def proposal (s : Store) (id : String) : Proposal := (s.proposals.lookup id).getD { id := trimSpace id }

/-- `addValidator`. -/
def addValidator (s : Store) (address : String) : Result Store := do
  refuseIf (s.validators.length ≥ maxValidators) (newError "validator set exceeds 4096 entries")
  refuseIf ((normalize address).val = "") (newError "validator address is required")
  refuseIf ((normalize address).val ∈ s.validators) (newError "validator already exists")
  return { s with
    validators := s.validators ++ [(normalize address).val]
    mutations := { s.mutations with validators := true } }

/-- `SetValidators`. -/
def setValidators (s : Store) (validators : List String) : Result Store := do
  refuseIf (validators.length = 0) (newError "validator set is empty")
  refuseIf (validators.length > maxValidators) (newError "validator set exceeds 4096 entries")
  let next ← validators.foldlM addValidator ({} : Store)
  return { s with validators := next.validators, mutations := { s.mutations with validators := true } }

/-- `ResetMutations`. -/
def resetMutations (s : Store) : Store := { s with mutations := {} }

end Store

end ChainLab.State
