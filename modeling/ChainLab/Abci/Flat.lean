import ChainLab.Proof.Binary
import ChainLab.Proof.SparseHistory
import ChainLab.State.Snapshot
import ChainLab.Types.Codec

/-! The flat form of a state: one entry for each account, storage slot, code, stake, proposal, parameter,
validator set, identity and offence, and the tree that commits to the entries. -/

namespace ChainLab.Abci

open ChainLab.Lib ChainLab.Types ChainLab.Crypto ChainLab.State ChainLab.Proof

def domainState : String := "chainlab-state-v1"
def flatSingletonKey : String := "state"

inductive FlatKind where
  | account | accountStorage | code | stake | proposal | param | validators | validatorIdentity | validatorOffence
  deriving DecidableEq, Inhabited

def FlatKind.name : FlatKind → String
  | .account => "account"
  | .accountStorage => "account_storage"
  | .code => "code"
  | .stake => "stake"
  | .proposal => "proposal"
  | .param => "param"
  | .validators => "validators"
  | .validatorIdentity => "validator_identity"
  | .validatorOffence => "validator_offence"

/-- The JSON of `persistedAccount`: an account without its storage. -/
def persistedAccountJson (account : Account) : JsonText :=
  jsonObject [jsonField "address" (jsonString account.address), jsonField "balance" (jsonUint account.balance),
    jsonField "nonce" (jsonUint account.nonce),
    jsonOmitEmpty (account.codeID = "") "code_id" (jsonString account.codeID),
    jsonOmitEmpty (account.delegatedCodeID = "") "delegated_code_id" (jsonString account.delegatedCodeID)]

structure PersistedAccountStorageKey where
  address : String
  key : String
  deriving DecidableEq, Inhabited

def PersistedAccountStorageKey.json (storageKey : PersistedAccountStorageKey) : JsonText :=
  jsonObject [jsonField "address" (jsonString storageKey.address), jsonField "key" (jsonString storageKey.key)]

structure FlatStateEntry where
  kind : FlatKind
  key : List UInt8
  value : List UInt8
  deriving DecidableEq, Inhabited

abbrev FlatState := GoMap String FlatStateEntry

/-- `flatStateID`. -/
def flatStateID (kind : FlatKind) (key : List UInt8) : String :=
  kind.name ++ ":" ++ String.ofList (base64Encode key)

/-- What an entry is about. -/
inductive FlatKey where
  | account (address : String)
  | accountStorage (address key : String)
  | code (codeID : String)
  | stake (address : String)
  | proposal (id : String)
  | param (key : String)
  | validators
  | validatorIdentity (consensusAddress : String)
  | validatorOffence (key : String)
  deriving DecidableEq

namespace FlatKey

def kind : FlatKey → FlatKind
  | .account _ => .account
  | .accountStorage _ _ => .accountStorage
  | .code _ => .code
  | .stake _ => .stake
  | .proposal _ => .proposal
  | .param _ => .param
  | .validators => .validators
  | .validatorIdentity _ => .validatorIdentity
  | .validatorOffence _ => .validatorOffence

/-- The key bytes of an entry. -/
def bytes : FlatKey → List UInt8
  | .account address => stringBytes address
  | .accountStorage address key => utf8Bytes (PersistedAccountStorageKey.json { address, key })
  | .code codeID => stringBytes codeID
  | .stake address => stringBytes address
  | .proposal id => stringBytes id
  | .param key => stringBytes key
  | .validators => stringBytes flatSingletonKey
  | .validatorIdentity consensusAddress => stringBytes consensusAddress
  | .validatorOffence key => stringBytes key

/-- The id of an entry. The texts here are valid UTF-8: in others `encoding/json` writes U+FFFD for what is not, so
that two storage keys can get one id. -/
def id (k : FlatKey) : String := flatStateID k.kind k.bytes

/-- The entry of a value. -/
def entry (k : FlatKey) (value : JsonText) : FlatStateEntry := { kind := k.kind, key := k.bytes, value := utf8Bytes value }

end FlatKey

/-! ### Flattening -/

/-- The entries of one account. -/
def accountEntries (address : String) (account : Account) : List (FlatKey × JsonText) :=
  (.account address, persistedAccountJson account) :: account.storage.sortedKeys.map fun key =>
    (.accountStorage address key, jsonString (GoMap.get account.storage key))

/-- The entries of a map, one for each key. -/
def mapEntries {ν : Type} [Inhabited ν] (name : String → FlatKey) (encode : ν → JsonText) (m : GoMap String ν) :
    List (FlatKey × JsonText) :=
  m.sortedKeys.map fun key => (name key, encode (GoMap.get m key))

/-- What `flattenStateSnapshot` writes, in its order; its maps are ranged over in the order of their keys. -/
def flatEntries (snapshot : Snapshot) : List (FlatKey × JsonText) :=
  (snapshot.accounts.sortedKeys.flatMap fun address => accountEntries address (GoMap.get snapshot.accounts address)) ++
  (mapEntries .code ContractCode.json snapshot.codes ++
  (mapEntries .stake jsonUint snapshot.stakes ++
  (mapEntries .proposal Proposal.json snapshot.proposals ++
  (mapEntries .param jsonString snapshot.params ++
  ((.validators, jsonStrings snapshot.validators) ::
  (mapEntries .validatorIdentity ValidatorIdentity.json (snapshot.validatorLifecycle.getD {}).validators ++
  mapEntries .validatorOffence ValidatorOffence.json (snapshot.validatorLifecycle.getD {}).offences))))))

/-- `putFlatStateValue`. -/
def putFlatStateValue (flat : FlatState) (k : FlatKey) (value : JsonText) : Result FlatState := do
  refuseIf (k.bytes.length = 0) (newError "flat state kind or key is invalid")
  refuseIf (k.id ∈ flat) (newError ("duplicate flat state entry " ++ quote k.id))
  return flat.insert k.id (k.entry value)

/-- `flattenStateSnapshot`. -/
def flattenStateSnapshot (snapshot : Snapshot) : Result FlatState :=
  (flatEntries snapshot).foldlM (fun flat item => putFlatStateValue flat item.1 item.2) ∅

/-- `flatEntriesSorted`. -/
def flatEntriesSorted (flat : FlatState) : List FlatStateEntry := flat.sortedKeys.map fun id => GoMap.get flat id

/-- The canonical bytes of `flatCommitmentEntry`. -/
def flatCommitmentLeaf (entry : FlatStateEntry) : List UInt8 :=
  utf8Bytes (jsonObject [jsonField "kind" (jsonString entry.kind.name),
    jsonField "key" (jsonString (String.ofList (base64Encode entry.key))),
    jsonField "value" (jsonString (String.ofList (base64Encode entry.value)))])

/-! ### The tree of the entries -/

/-- What the store's readers return for an entry: `AccountMetadata`, `GetStorageWithExists`, `ContractCode`,
`StakeWithExists`, `ProposalWithExists`, `ParamWithExists`, `Validators`,
`ValidatorIdentityByConsensusAddress` and `ValidatorOffence`. -/
def readFlatValue (store : Store) : FlatKey → Option JsonText
  | .account address => (store.accounts.lookup (normalize address)).map persistedAccountJson
  | .accountStorage address key => ((store.account address).storage.lookup key).map jsonString
  | .code codeID => (store.contractCode codeID).map ContractCode.json
  | .stake address => (store.stakes.lookup (normalize address)).map jsonUint
  | .proposal id => (store.proposals.lookup id).map Proposal.json
  | .param key => (store.params.lookup (trimSpace key)).map jsonString
  | .validators => some (jsonStrings store.validators)
  | .validatorIdentity consensusAddress =>
    (store.validatorIdentityByConsensusAddress consensusAddress).map ValidatorIdentity.json
  | .validatorOffence key =>
    (store.validatorLifecycle.bind fun lifecycle => lifecycle.offences.lookup key).map ValidatorOffence.json

/-- The storage slots of a journal, by address and then by key. -/
def sortedStorageMutations (slots : Finset (Address × String)) : List (Address × String) :=
  ((slots.image Prod.fst).sort (· ≤ ·)).flatMap fun address =>
    (((slots.filter fun slot => slot.1 = address).image Prod.snd).sort (· ≤ ·)).map fun key => (address, key)

/-- `Mutations`, as the entries that the journal's readers visit, in their order. -/
def mutatedKeys (m : MutationTracker) : List FlatKey :=
  (m.accounts.sort (· ≤ ·)).map (fun address => FlatKey.account address.val) ++
  ((sortedStorageMutations m.accountStorage).map (fun slot => FlatKey.accountStorage slot.1.val slot.2) ++
  ((m.contractCodes.sort (· ≤ ·)).map FlatKey.code ++
  ((m.stakes.sort (· ≤ ·)).map (fun address => FlatKey.stake address.val) ++
  ((m.proposals.sort (· ≤ ·)).map FlatKey.proposal ++
  ((m.params.sort (· ≤ ·)).map FlatKey.param ++
  ((if m.validators then [FlatKey.validators] else []) ++
  ((m.validatorIdentities.sort (· ≤ ·)).map FlatKey.validatorIdentity ++
  (m.validatorOffences.sort (· ≤ ·)).map FlatKey.validatorOffence)))))))

section Tree

variable [Primitives]

/-- `setFlatSparseEntry`. -/
def setFlatSparseEntry (trees : SparseHeap) (tree : Nat) (entry : FlatStateEntry) : Result SparseHeap :=
  trees.set tree (flatStateID entry.kind entry.key) (flatCommitmentLeaf entry)

/-- `setFlatSparseValue`. -/
def setFlatSparseValue (trees : SparseHeap) (tree : Nat) (k : FlatKey) (value : Option JsonText) :
    Result SparseHeap := do
  refuseIf (k.bytes.length = 0) (newError "sparse state mutation kind or key is invalid")
  match value with
  | none => trees.delete tree k.id
  | some value => setFlatSparseEntry trees tree (k.entry value)

/-- `applyStoreMutationsToSparseTree`. -/
def applyStoreMutationsToSparseTree (trees : SparseHeap) (tree : Nat) (store : Store) : Result SparseHeap :=
  (mutatedKeys store.mutations).foldlM (fun trees k => setFlatSparseValue trees tree k (readFlatValue store k)) trees

/-- `buildFlatSparseTree`: the tree is the first object of a new heap. -/
def buildFlatSparseTree (flat : FlatState) : Result SparseHeap := do
  let trees ← newSparseTree domainSparseState
  (flatEntriesSorted flat).foldlM (fun trees entry => setFlatSparseEntry trees 0 entry) trees

/-- `buildStoreSparseTree`. -/
def buildStoreSparseTree (store : Store) : Result SparseHeap := do
  let flat ← flattenStateSnapshot store.snapshot
  buildFlatSparseTree flat

/-- The leaves of `stateMerkleLeaves`. -/
def stateMerkleLeaves (store : Store) : Result (List (List UInt8)) := do
  let flat ← flattenStateSnapshot store.snapshot
  return (flatEntriesSorted flat).map flatCommitmentLeaf

end Tree

/-! ### Entries by key -/

/-- The value of an entry in a snapshot. -/
def flatValue (snapshot : Snapshot) : FlatKey → Option JsonText
  | .account address => (snapshot.accounts.lookup address).map persistedAccountJson
  | .accountStorage address key =>
    ((snapshot.accounts.lookup address).bind fun account => account.storage.lookup key).map jsonString
  | .code codeID => (snapshot.codes.lookup codeID).map ContractCode.json
  | .stake address => (snapshot.stakes.lookup address).map jsonUint
  | .proposal id => (snapshot.proposals.lookup id).map Proposal.json
  | .param key => (snapshot.params.lookup key).map jsonString
  | .validators => some (jsonStrings snapshot.validators)
  | .validatorIdentity consensusAddress =>
    ((snapshot.validatorLifecycle.getD {}).validators.lookup consensusAddress).map ValidatorIdentity.json
  | .validatorOffence key =>
    ((snapshot.validatorLifecycle.getD {}).offences.lookup key).map ValidatorOffence.json

end ChainLab.Abci
