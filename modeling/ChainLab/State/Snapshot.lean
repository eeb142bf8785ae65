import ChainLab.State.Lifecycle
import ChainLab.Types.Schema

/-! Snapshots of a store: what they hold, the store rebuilt from one with every check it makes, and the
root of a store. -/

namespace ChainLab.State

open ChainLab.Lib ChainLab.Types ChainLab.Crypto

structure Snapshot where
  accounts : GoMap String Account := ∅
  codes : GoMap String ContractCode := ∅
  stakes : GoMap String UInt64 := ∅
  proposals : GoMap String Proposal := ∅
  params : GoMap String String := ∅
  validators : List String := []
  validatorLifecycle : Option ValidatorLifecycle := none
  deriving DecidableEq, Inhabited

/-- The entries of a map of the store under the texts of their keys. -/
def byText {ν : Type} (m : GoMap Address ν) : GoMap String ν := GoMap.rekey Subtype.val Subtype.val_injective m

/-- `Snapshot`. -/
def Store.snapshot (s : Store) : Snapshot where
  accounts := byText s.accounts
  codes := s.codes
  stakes := byText s.stakes
  proposals := s.proposals
  params := s.params
  validators := s.validators
  validatorLifecycle := s.validatorLifecycle

/-! ### The store of a snapshot -/

/-- One round of `validateCanonicalAddressMapKeys`, on the addresses seen so far. -/
def scanAddressKey (kind : String) (seen : List String) (key : String) : Result (List String) := do
  let normalized ← (normalizeAddress key).mapError fun _ =>
    newError ("snapshot " ++ kind ++ " key " ++ quote key ++ " is not a valid address")
  refuseIf (normalized ∈ seen) (newError ("snapshot " ++ kind ++ " keys " ++ quote normalized ++ " and " ++
    quote key ++ " normalize to the same address"))
  refuseIf (normalized ≠ key)
    (newError ("snapshot " ++ kind ++ " key " ++ quote key ++ " is not canonically encoded"))
  return normalized :: seen

/-- `validateCanonicalAddressMapKeys`. -/
def validateCanonicalAddressMapKeys {ν : Type} (kind : String) (values : GoMap String ν) : Result Unit := do
  let _ ← values.sortedKeys.foldlM (scanAddressKey kind) []

/-- `validateCanonicalStateKey`. -/
def validateCanonicalStateKey (field value : String) : Result Unit :=
  refuseIf (value = "" ∨ value ≠ trimSpace value)
    (newError ("snapshot " ++ field ++ " " ++ quote value ++ " is empty or not canonical"))

/-- `validateCanonicalAddressValue`. -/
def validateCanonicalAddressValue (field value : String) : Result Unit :=
  refuseIf (¬IsCanonicalAddress value)
    (newError ("snapshot " ++ field ++ " " ++ quote value ++ " is not a canonical address"))

/-- `validateSnapshotContractCode`. -/
def validateSnapshotContractCode [Primitives] (code : ContractCode) : Result Unit := do
  refuseIf (code.runtime ≠ "wasm") (newError ("runtime " ++ quote code.runtime ++ " is unsupported"))
  refuseIf (code.meteringVersion ≠ wasmMeteringVersion)
    (newError ("metering version " ++ quote code.meteringVersion ++ " is unsupported"))
  validateCanonicalAddressValue "contract code creator" code.creator
  let malformed := newError "bytecode is not canonical lowercase 0x-prefixed hex"
  refuseIf (code.bytecode = "" ∨ code.bytecode ≠ trimSpace code.bytecode ∨ code.bytecode ≠ toLower code.bytecode ∨
    !hasPrefix code.bytecode "0x") malformed
  let encodedBytes := len code.bytecode - 2
  refuseIf (encodedBytes = 0 ∨ encodedBytes % 2 ≠ 0 ∨ encodedBytes > maxWASMModuleBytes * 2)
    (newError "bytecode exceeds 524288 bytes or is not canonical hex")
  let raw ← require (hexDecode ((runes code.bytecode).drop 2)) malformed
  refuseIf (raw.length = 0) malformed
  refuseIf (code.codeID ≠ wasmCodeID raw) (newError ("code id does not match bytecode hash: got " ++
    quote code.codeID ++ " want " ++ quote (wasmCodeID raw)))

/-- `validateSnapshotProposalID`. -/
def validateSnapshotProposalID (id : String) : Result Unit := do
  let malformed := newError ("proposal id " ++ quote id ++ " is not canonical")
  refuseIf (id = "" ∨ id ≠ trimSpace id ∨ !hasPrefix id "proposal:") malformed
  (validateCanonicalHash "proposal hash" (trimPrefix id "proposal:")).mapError fun _ => malformed

/-- `validProposalChoice`. -/
def validProposalChoice (choice : String) : Bool := choice = "yes" || choice = "no" || choice = "abstain"

/-- `validateSnapshotProposal`. -/
def validateSnapshotProposal (proposal : Proposal) : Result Unit := do
  validateCanonicalAddressValue "proposal proposer" proposal.proposer
  refuseIf (proposal.title = "" ∨ proposal.title ≠ trimSpace proposal.title)
    (newError "title is empty or not canonical")
  refuseIf (proposal.description ≠ trimSpace proposal.description) (newError "description is not canonical")
  refuseIf (proposal.kind ≠ "param.change") (newError ("kind " ++ quote proposal.kind ++ " is unsupported"))
  refuseIf (proposal.param = "" ∨ proposal.param ≠ trimSpace proposal.param)
    (newError "parameter is empty or not canonical")
  refuseIf (proposal.value = "" ∨ proposal.value ≠ trimSpace proposal.value)
    (newError "value is empty or not canonical")
  refuseIf (proposal.status ∉ ["open", "rejected", "executed"])
    (newError ("status " ++ quote proposal.status ++ " is invalid"))
  refuseIf (proposal.votingEndHeight ≤ proposal.submitHeight)
    (newError "voting end height must exceed submit height")
  proposal.votes.sortedKeys.forM fun choice =>
    refuseIf (!validProposalChoice choice) (newError ("vote choice " ++ quote choice ++ " is invalid"))
  validateCanonicalAddressMapKeys "proposal voter" proposal.voters
  proposal.voters.sortedKeys.forM fun voter =>
    refuseIf (!validProposalChoice (GoMap.get proposal.voters voter)) (newError ("voter " ++ quote voter ++
      " has invalid choice " ++ quote (GoMap.get proposal.voters voter)))

/-- One round of the validator loop of `validateSnapshotValidators`, on the validators kept so far. -/
def scanSnapshotValidator (kept : List String) (entry : String × Nat) : Result (List String) := do
  validateCanonicalAddressValue ("validator " ++ itoa entry.2) entry.1
  refuseIf (entry.1 ∈ kept) (newError ("snapshot validator " ++ quote entry.1 ++ " is duplicated"))
  return kept ++ [entry.1]

/-- `validateSnapshotValidators`. -/
def validateSnapshotValidators (validators : List String) : Result (List String) := do
  refuseIf (validators.length = 0) (newError "snapshot validator set is empty")
  refuseIf (validators.length > maxValidators) (newError "snapshot validator set exceeds 4096 entries")
  validators.zipIdx.foldlM scanSnapshotValidator []

/-- The refusal of an account over its storage limits. -/
def snapshotStorageLimit (address : String) : GoError :=
  { sentinel := some .storageLimit, text := Sentinel.storageLimit.text ++ " for account " ++ quote address }

/-- One round of the storage loop, on the bytes counted so far. -/
def scanSnapshotStorage (address : String) (storage : Fields) (storageBytes : Nat) (key : String) : Result Nat := do
  let value := GoMap.get storage key
  refuseIf (key = "" ∨ len key > maxStorageKeyBytes ∨ len value > maxStorageValueBytes)
    (snapshotStorageLimit address)
  refuseIf (storageBytes + len key > maxStorageBytesPerAccount ∨
    storageBytes + len key + len value > maxStorageBytesPerAccount) (snapshotStorageLimit address)
  return storageBytes + len key + len value

/-- One round of the account loop. -/
def loadAccount (accounts : GoMap String Account) (store : Store) (address : String) : Result Store := do
  let account := GoMap.get accounts address
  refuseIf (account.address = "" ∨ account.address ≠ address) (newError ("snapshot account " ++ quote address ++
    " has mismatched embedded address " ++ quote account.address))
  refuseIf (account.codeID ≠ trimSpace account.codeID)
    (newError ("snapshot account " ++ quote address ++ " code id is not canonical"))
  refuseIf (account.delegatedCodeID ≠ trimSpace account.delegatedCodeID)
    (newError ("snapshot account " ++ quote address ++ " delegated code id is not canonical"))
  refuseIf (GoMap.len account.storage > maxStorageEntriesPerAccount) (snapshotStorageLimit address)
  let storageBytes ← account.storage.sortedKeys.foldlM (scanSnapshotStorage address account.storage) 0
  return { store with
    accounts := store.accounts.insert (normalize address) account
    storageBytes := store.storageBytes.insert (normalize address) storageBytes }

/-- One round of the contract code loop. The code ids seen so far are those of the codes kept. -/
def loadCode [Primitives] (codes : GoMap String ContractCode) (store : Store) (mapKey : String) : Result Store := do
  let code := GoMap.get codes mapKey
  validateCanonicalStateKey "contract code map key" mapKey
  validateCanonicalStateKey "contract code id" code.codeID
  refuseIf (code.codeID ∈ store.codes) (newError ("snapshot contract code id " ++ quote code.codeID ++
    " is duplicated by keys " ++ quote code.codeID ++ " and " ++ quote mapKey))
  refuseIf (mapKey ≠ code.codeID) (newError ("snapshot contract code key " ++ quote mapKey ++
    " does not match embedded id " ++ quote code.codeID))
  (validateSnapshotContractCode code).mapError
    (GoError.annotate ("snapshot contract code " ++ quote mapKey ++ ": "))
  return { store with codes := store.codes.insert mapKey code }

/-- One round of the proposal loop. The ids seen so far are those of the proposals kept. -/
def loadProposal (proposals : GoMap String Proposal) (store : Store) (mapKey : String) : Result Store := do
  let proposal := GoMap.get proposals mapKey
  (validateSnapshotProposalID mapKey).mapError (GoError.annotate "snapshot proposal map key: ")
  (validateSnapshotProposalID proposal.id).mapError (GoError.annotate "snapshot proposal embedded id: ")
  refuseIf (proposal.id ∈ store.proposals) (newError ("snapshot proposal id " ++ quote proposal.id ++
    " is duplicated by keys " ++ quote proposal.id ++ " and " ++ quote mapKey))
  refuseIf (mapKey ≠ proposal.id) (newError ("snapshot proposal key " ++ quote mapKey ++
    " does not match embedded id " ++ quote proposal.id))
  (validateSnapshotProposal proposal).mapError (GoError.annotate ("snapshot proposal " ++ quote mapKey ++ ": "))
  return { store with proposals := store.proposals.insert mapKey proposal }

/-- One round of the parameter loop. -/
def loadParam (params : GoMap String String) (store : Store) (key : String) : Result Store := do
  validateCanonicalStateKey "parameter key" key
  return { store with params := store.params.insert key (GoMap.get params key) }

/-- `NewStoreFromSnapshot`. -/
def newStoreFromSnapshot [Primitives] (snapshot : Snapshot) : Result Store := do
  validateCanonicalAddressMapKeys "account" snapshot.accounts
  let store ← snapshot.accounts.sortedKeys.foldlM (loadAccount snapshot.accounts) {}
  let store ← snapshot.codes.sortedKeys.foldlM (loadCode snapshot.codes) store
  validateCanonicalAddressMapKeys "stake" snapshot.stakes
  let store := snapshot.stakes.sortedKeys.foldl (fun (store : Store) address => { store with
    stakes := store.stakes.insert (normalize address) (GoMap.get snapshot.stakes address) }) store
  let store ← snapshot.proposals.sortedKeys.foldlM (loadProposal snapshot.proposals) store
  let store ← snapshot.params.sortedKeys.foldlM (loadParam snapshot.params) store
  let validators ← validateSnapshotValidators snapshot.validators
  let store := { store with validators }
  let store ← match snapshot.validatorLifecycle with
    | none => .ok store
    | some lifecycle =>
      (store.setValidatorLifecycle lifecycle).mapError (GoError.annotate "invalid snapshot validator lifecycle: ")
  return store.resetMutations

/-! ### Encodings -/

/-- A slice of strings: a nil one is written as `null`. -/
def jsonStrings (values : List String) : JsonText :=
  if values.isEmpty then "null".toList else jsonArray (values.map jsonString)

def lifecycleField (lifecycle : Option ValidatorLifecycle) : Option (String × JsonText) :=
  lifecycle.map fun value => ("validator_lifecycle", value.json)

def Snapshot.json (snapshot : Snapshot) : JsonText :=
  jsonObject [jsonField "accounts" (jsonMap Account.json snapshot.accounts),
    jsonOmitEmpty (GoMap.len snapshot.codes = 0) "codes" (jsonMap ContractCode.json snapshot.codes),
    jsonField "stakes" (jsonMap jsonUint snapshot.stakes),
    jsonField "proposals" (jsonMap Proposal.json snapshot.proposals),
    jsonOmitEmpty (GoMap.len snapshot.params = 0) "params" (jsonMap jsonString snapshot.params),
    jsonOmitEmpty snapshot.validators.isEmpty "validators" (jsonStrings snapshot.validators),
    lifecycleField snapshot.validatorLifecycle]

/-- `Root`. -/
def Store.root [Primitives] (s : Store) : String :=
  keccakHex (utf8Bytes (jsonObject [jsonField "accounts" (jsonMap Account.json (byText s.accounts)),
    jsonField "codes" (jsonMap ContractCode.json s.codes), jsonField "stakes" (jsonMap jsonUint (byText s.stakes)),
    jsonField "proposals" (jsonMap Proposal.json s.proposals), jsonField "params" (jsonMap jsonString s.params),
    jsonField "validators" (jsonStrings s.validators), lifecycleField s.validatorLifecycle]))

end ChainLab.State
