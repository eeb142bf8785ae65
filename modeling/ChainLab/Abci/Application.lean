import ChainLab.Abci.Evidence
import ChainLab.Abci.Flat
import ChainLab.Abci.Mempool
import ChainLab.Lib.Action
import ChainLab.Types.Block

/-! The application: the committed state, a decided block waiting for its commit, and the requests that move
from one to the next. -/

namespace ChainLab.Abci

open ChainLab.Lib ChainLab.Types ChainLab.Crypto ChainLab.State ChainLab.Core ChainLab.Proof

def domainTx : String := "chainlab-tx-v1"
def domainReceipt : String := "chainlab-receipt-v1"

def maxProposalTxBytes : Int64 := 12 * 1024 * 1024
def maxProposalCandidates : Nat := maxTransactionsPerBlock * 2

/-! ### Commitments -/

structure ApplicationCommitment where
  protocol : Protocol
  chainID : String
  height : Int64
  blockHash : String := ""
  proposer : String
  gasLimit : UInt64
  gasUsed : UInt64 := 0
  baseFeePerGas : UInt64
  nextBaseFeePerGas : UInt64
  txRoot : String
  receiptRoot : String
  evidenceRoot : String
  stateRoot : String
  epoch : UInt64 := 0
  validatorRoot : String := ""
  deriving DecidableEq, Inhabited

def ApplicationCommitment.json (c : ApplicationCommitment) : JsonText :=
  jsonObject [jsonField "protocol" (jsonString c.protocol.name), jsonField "chain_id" (jsonString c.chainID),
    jsonField "height" (jsonInt c.height), jsonOmitEmpty (c.blockHash = "") "block_hash" (jsonString c.blockHash),
    jsonField "proposer" (jsonString c.proposer), jsonField "gas_limit" (jsonUint c.gasLimit),
    jsonField "gas_used" (jsonUint c.gasUsed), jsonField "base_fee_per_gas" (jsonUint c.baseFeePerGas),
    jsonField "next_base_fee_per_gas" (jsonUint c.nextBaseFeePerGas), jsonField "tx_root" (jsonString c.txRoot),
    jsonField "receipt_root" (jsonString c.receiptRoot), jsonField "evidence_root" (jsonString c.evidenceRoot),
    jsonField "state_root" (jsonString c.stateRoot), jsonOmitEmpty (c.epoch = 0) "epoch" (jsonUint c.epoch),
    jsonOmitEmpty (c.validatorRoot = "") "validator_root" (jsonString c.validatorRoot)]

/-- A committed state; its tree is an object of the application's heap. -/
structure CommittedState where
  store : Store
  flatTree : Nat
  commitment : ApplicationCommitment
  appHash : List UInt8

structure BlockCandidate where
  state : CommittedState
  txs : List (List UInt8)
  receipts : List Receipt

structure PersistedApplicationState where
  committed : CommittedState
  initialized : Bool
  proposers : GoMap String String
  txs : List (List UInt8)
  receipts : List Receipt

/-- An open application. `trees` holds the objects that the tree handles point to. -/
structure Application where
  genesis : GenesisDocument
  maxAppVersion : UInt64
  cometRetainHeights : UInt64
  committed : CommittedState
  initialized : Bool
  proposers : GoMap String String
  candidate : Option BlockCandidate := none
  mempool : AppMempool
  haltErr : Option GoError := none
  closed : Bool := false
  committedTxs : List (List UInt8)
  committedReceipts : List Receipt
  trees : SparseHeap

section Roots

variable [Primitives]

/-- `applicationHash`. -/
def applicationHash (commitment : ApplicationCommitment) : List UInt8 :=
  (Primitives.keccak (utf8Bytes commitment.json)).val

/-- `transactionRootForProtocol`. -/
def transactionRootForProtocol (protocol : Protocol) (txs : List Transaction) : Result String :=
  if protocol.usesMerkleProofs then Proof.root domainTx (txs.map fun tx => utf8Bytes tx.json)
  else .ok (transactionRoot txs)

/-- `receiptRootForProtocol`. -/
def receiptRootForProtocol (protocol : Protocol) (receipts : List Receipt) : Result String :=
  if protocol.usesMerkleProofs then Proof.root domainReceipt (receipts.map fun receipt => utf8Bytes receipt.json)
  else .ok (receiptRoot receipts)

/-- `stateRootForProtocol`. -/
def stateRootForProtocol (protocol : Protocol) (store : Store) : Result String :=
  if !protocol.usesMerkleProofs then .ok store.root
  else if protocol.usesSparseState then do
    let trees ← buildStoreSparseTree store
    return trees.root 0
  else do
    let leaves ← stateMerkleLeaves store
    Proof.root domainState leaves

/-- `stateRootForCommitted`. -/
def stateRootForCommitted (protocol : Protocol) (store : Store) (trees : SparseHeap) (tree : Nat) : Result String :=
  if !protocol.usesSparseState then stateRootForProtocol protocol store else .ok (trees.root tree)

end Roots

/-! ### Opening -/

section Opening

variable [Primitives]

/-- The commitment of a genesis. -/
def genesisCommitment (genesis : GenesisDocument) (store : Store) : ApplicationCommitment where
  protocol := genesis.protocol
  chainID := genesis.chainID
  height := 0
  proposer := "genesis"
  gasLimit := genesis.blockGasLimit
  baseFeePerGas := initialBaseFeePerGas
  nextBaseFeePerGas := initialBaseFeePerGas
  txRoot := transactionRoot []
  receiptRoot := receiptRoot []
  evidenceRoot := evidenceRoot []
  stateRoot := store.root

/-- The state a new database is given. -/
def initialState (genesis : GenesisDocument) (store : Store) : PersistedApplicationState :=
  let commitment := genesisCommitment genesis store
  { committed := { store, flatTree := 0, commitment, appHash := applicationHash commitment }
    initialized := false, proposers := ∅, txs := [], receipts := [] }

/-- `NewApplication`. `load` is what the persistence returns for the genesis and the initial state; without
one it returns the latter. -/
def newApplication (document : GenesisDocument) (maxAppVersion cometRetainHeights : UInt64)
    (load : GenesisDocument → PersistedApplicationState → Result PersistedApplicationState) :
    Result Application := do
  let maxAppVersion ← normalizeMaxAppVersion maxAppVersion
  let store ← validateGenesisDocument document
  let genesis := { document with state := store.snapshot }
  let persisted ← load genesis (initialState genesis store)
  let trees ← (buildStoreSparseTree persisted.committed.store).mapError
    (GoError.annotate "build committed sparse state tree: ")
  let required := appVersionAtHeight genesis (nextApplicationHeight persisted.committed.commitment.height)
  refuseIf (required > maxAppVersion) (newError ("application binary supports app version " ++
    formatUint maxAppVersion ++ " but the next height requires version " ++ formatUint required))
  return {
    genesis, maxAppVersion, cometRetainHeights, committed := { persisted.committed with flatTree := 0 }
    initialized := persisted.initialized, proposers := persisted.proposers
    mempool := newAppMempool persisted.committed.store, committedTxs := persisted.txs
    committedReceipts := persisted.receipts, trees }

end Opening

/-! ### Checks -/

namespace Application

variable (a : Application)

/-- `requireReadyLocked`. -/
def requireReady : Result Unit := do
  refuseIf a.closed (newError "application is closed")
  match a.haltErr with
  | some err => .error (err.annotate "application is halted: ")
  | none => .ok ()
  refuseIf (!a.initialized) (newError "application is not initialized")
  refuseIf (a.committed.commitment.height ≥ maxInt64) (newError "application height domain is exhausted")

/-- `requireProtocolSupportLocked`, with the next height included. -/
def requireProtocolSupport (height : Int64) : Result Unit :=
  let required :=
    if height < maxInt64 then
      max (appVersionAtHeight a.genesis height) (appVersionAtHeight a.genesis (nextApplicationHeight height))
    else appVersionAtHeight a.genesis height
  refuseIf (required > a.maxAppVersion) (newError ("application binary supports app version " ++
    formatUint a.maxAppVersion ++ " but height " ++ String.ofList (jsonInt height) ++ " requires version " ++
    formatUint required))

/-- `consensusParamUpdatesLocked`: the application version to announce, if it changes. -/
def consensusParamUpdates (height : Int64) : Result (Option UInt64) :=
  if height ≥ maxInt64 then .ok none
  else
    let next := appVersionAtHeight a.genesis (nextApplicationHeight height)
    if next = appVersionAtHeight a.genesis height then .ok none
    else do
      refuseIf (next > a.maxAppVersion) (newError ("application binary supports app version " ++
        formatUint a.maxAppVersion ++ " but scheduled update requires version " ++ formatUint next))
      return some next

/-- `validatorAccountLocked`. -/
def validatorAccount (address : List UInt8) (height : Int64) : Result String := do
  refuseIf (address.length ≠ 20) (newError "validator has an invalid consensus address")
  let key := String.ofList (hexEncode address)
  if a.genesis.protocol = .v2 then
    let identity ← require (a.committed.store.validatorIdentityByConsensusAddress key)
      (newError "validator identity is unknown")
    refuseIf (!validatorIdentityActive identity height) (newError "validator is not active at this height")
    return identity.account
  else require (a.proposers.lookup key) (newError "validator is not in the fixed validator set")

/-- `proposerLocked`. -/
def proposer (address : List UInt8) (height : Int64) : Result String :=
  (a.validatorAccount address height).mapError (GoError.annotate "proposal proposer: ")

/-- The policy of a version 2 genesis; the code dereferences it where the genesis was checked to have one. -/
def policy : ValidatorPolicy := a.genesis.validatorPolicy.getD default

/-- `executionContextLocked`. -/
def executionContext [Primitives] (height : Int64) (baseFeePerGas : UInt64) : ExecutionContext :=
  if a.genesis.protocol = .v2 then {
    blockHeight := height.toUInt64, baseFeePerGas
    validatorRuntimeAdmissions := a.policy.runtimeAdmissions
    validatorEpochLength := a.policy.epochLength
    validatorRuntimeAdmissionWindow := a.policy.runtimeAdmissionWindow
    validatorAdmissionAuthorizationRoot := a.committed.store.validatorRoot }
  else { blockHeight := height.toUInt64, baseFeePerGas }

end Application

/-- `canonicalBlockHash`. -/
def canonicalBlockHash (raw : List UInt8) : Result String := do
  refuseIf (raw.length ≠ 32) (newError "proposal block hash must be 32 bytes")
  return String.ofList ('0' :: 'x' :: hexEncode raw)

/-! ### Genesis validators -/

structure GenesisValidator where
  publicKey : List UInt8
  power : Int64

/-- What the loop of `bindGenesisValidators` has collected. -/
structure Bindings where
  proposers : GoMap String String := ∅
  identities : List ValidatorIdentity := []
  accounts : List String := []

section Bind

variable [Primitives]

/-- One round of the loop of `bindGenesisValidators`. -/
def bindGenesisValidator (bound : Bindings) (entry : GenesisValidator × Nat) : Result Bindings := do
  let update := entry.1
  let about := fun text => newError ("genesis validator " ++ itoa entry.2 ++ text)
  refuseIf (update.power ≠ 1) (about " must have voting power 1")
  let account ← require (addressFromCompressedPublicKey update.publicKey)
    (about ": public key must be a compressed secp256k1 key")
  let key := String.ofList (hexEncode (Primitives.ripemd160 (Primitives.sha256 update.publicKey)))
  refuseIf (key ∈ bound.proposers) (about " has a duplicate consensus address")
  return {
    proposers := bound.proposers.insert key account
    identities := bound.identities ++ [{
      account, consensusAddress := key, publicKey := String.ofList (hexEncode update.publicKey)
      power := update.power, activeHeight := 1 }]
    accounts := bound.accounts ++ [account] }

/-- `bindGenesisValidators`. -/
def bindGenesisValidators (updates : List GenesisValidator) (expected : List String) :
    Result (GoMap String String × List ValidatorIdentity) := do
  refuseIf (updates.length = 0 ∨ updates.length ≠ expected.length)
    (newError "CometBFT genesis validators must exactly match ChainLab validators")
  refuseIf (updates.length > maxValidators) (newError "genesis validator set exceeds 4096 entries")
  let bound ← updates.zipIdx.foldlM bindGenesisValidator {}
  refuseIf (bound.accounts.insertionSort (· ≤ ·) ≠ expected.insertionSort (· ≤ ·))
    (newError "CometBFT genesis validator accounts do not match ChainLab state")
  return (bound.proposers, bound.identities)

end Bind

/-! ### Requests -/

structure InitChainRequest where
  chainID : String
  initialHeight : Int64
  appStateBytes : List UInt8
  consensusParams : Option ConsensusParams
  validators : List GenesisValidator

structure FinalizeBlockRequest where
  hash : List UInt8
  height : Int64
  time : Time
  proposerAddress : List UInt8
  txs : List (List UInt8)
  misbehavior : List Misbehavior

structure FinalizeBlockResponse where
  validatorUpdates : List ValidatorUpdate
  consensusParamUpdates : Option UInt64
  appHash : List UInt8

structure ProposalEvidenceState where
  store : Store
  records : List EvidenceRecord
  updates : List ValidatorUpdate := []

structure ProposalExecution where
  store : Store
  rawTxs : List (List UInt8) := []
  txs : List Transaction := []
  receipts : List Receipt := []
  gasUsed : UInt64 := 0
  totalBytes : Int64 := 0

/-- Why a transaction is not part of a proposal. -/
inductive ProposalFailure where
  | fatal (err : GoError)
  | invalid (err : GoError)

structure CheckTxResponse where
  code : UInt32
  log : String := ""
  data : List UInt8 := []
  gasWanted : Int64 := 0
  gasUsed : Int64 := 0

structure PrepareProposalRequest where
  maxTxBytes : Int64
  txs : List (List UInt8)
  misbehavior : List Misbehavior
  height : Int64
  time : Time
  proposerAddress : List UInt8

inductive ProposalStatus where
  | accept
  | reject
  deriving DecidableEq

/-- What `FinalizeBlock` has established before it executes. -/
structure BegunBlock where
  consensusParamUpdates : Option UInt64
  blockHash : String
  proposer : String
  evidence : ProposalEvidenceState

/-- What `FinalizeBlock` decides. -/
structure SealedBlock where
  candidate : BlockCandidate
  trees : SparseHeap
  validatorUpdates : List ValidatorUpdate

namespace Application

/-- Stop with the error of a step; a fatal one halts the application. -/
def haltIfFatal {α : Type} (wrap : GoError → GoError) : Result α → Action Application GoError α
  | .ok value => pure value
  | .error err => fun a =>
    (.error (wrap err), if isFatalExecutionError err then { a with haltErr := some err } else a)

section Blocks

variable [Primitives] [DecodesJson Transaction] (runtime : Core.Runtime) (a : Application)

/-- `proposalEvidenceStateLocked`. -/
def proposalEvidenceState (input : List Misbehavior) (height : Int64) (blockTime : Time) :
    Result ProposalEvidenceState :=
  if a.genesis.protocol = .v1 then do
    let records ← validateEvidence input height a.proposers
    return { store := a.committed.store, records }
  else do
    let protocol := protocolAtHeight a.genesis height
    let working ← (if protocol = .v5 then compactValidatorOffencesV5 a.committed.store height blockTime a.policy
      else .ok a.committed.store)
    let lifecycle ← require working.validatorLifecycle
      (newError "protocol version 2 validator lifecycle is missing")
    validateValidatorEpochSchedule lifecycle working.validators a.policy.epochLength a.policy.unbondingEpochs
    let records ← validateEvidenceV2 input height blockTime lifecycle a.policy
    let applied ← applyEvidenceV2 working records height a.policy (protocol = .v5)
    return { store := applied.1, records, updates := applied.2 }

/-- One transaction of the loop of `executeProposalFromStoreLocked`, past its size. -/
def proposeTransaction (proposer : String) (context : ExecutionContext) (result : ProposalExecution)
    (raw : List UInt8) (index : Nat) : Except ProposalFailure ProposalExecution := do
  let about := fun err => ProposalFailure.invalid (GoError.annotate ("transaction " ++ itoa index ++ ": ") err)
  let overfull := ProposalFailure.invalid (newError ("transaction " ++ itoa index ++ " exceeds block gas limit"))
  let tx ← (decodeTransaction raw a.genesis.chainID a.genesis.blockGasLimit).mapError about
  let executor : Executor := { chainID := a.genesis.chainID, feeCollector := proposer, runtime }
  let executed := executor.executeWithContext result.store tx context
  let receipt ← executed.2.mapError fun err => if isFatalExecutionError err then .fatal err else about err
  let nextGas ← (checkedAdd result.gasUsed receipt.gasUsed).mapError fun _ => overfull
  if nextGas > a.genesis.blockGasLimit then .error overfull
  else .ok {
    store := executed.1, rawTxs := result.rawTxs ++ [raw], txs := result.txs ++ [tx]
    receipts := result.receipts ++ [receipt], gasUsed := nextGas
    totalBytes := result.totalBytes + proposalTxSize raw }

/-- Go on after one transaction: a fatal error always stops, and any other stops a strict proposal. -/
def continueProposal (strict : Bool) (rest : ProposalExecution → Result ProposalExecution)
    (result : ProposalExecution) : Except ProposalFailure ProposalExecution → Result ProposalExecution
  | .ok next => rest next
  | .error (.fatal err) => .error err
  | .error (.invalid err) => if strict then .error err else rest result

/-- The loop of `executeProposalFromStoreLocked`. -/
def executeProposalLoop (proposer : String) (context : ExecutionContext) (maxBytes : Int64) (strict : Bool) :
    List (List UInt8 × Nat) → ProposalExecution → Result ProposalExecution
  | [], result => .ok result
  | (raw, index) :: rest, result =>
    if !strict ∧ index ≥ maxProposalCandidates then .ok result
    else if result.txs.length ≥ maxTransactionsPerBlock then .ok result
    else if proposalTxSize raw < 0 ∨ result.totalBytes > maxBytes - proposalTxSize raw then
      if strict then .error (newError "proposal transaction bytes exceed the protocol limit") else .ok result
    else continueProposal strict (executeProposalLoop proposer context maxBytes strict rest) result
      (a.proposeTransaction runtime proposer context result raw index)

/-- `executeProposalFromStoreLocked`. -/
def executeProposalFromStore (base : Store) (rawTxs : List (List UInt8)) (height : Int64) (proposer : String)
    (maxBytes : Int64) (strict : Bool) : Result ProposalExecution := do
  refuseIf (strict ∧ rawTxs.length > maxTransactionsPerBlock) (newError "proposal exceeds 4096 transactions")
  a.executeProposalLoop runtime proposer (a.executionContext height a.committed.commitment.nextBaseFeePerGas) maxBytes
    strict rawTxs.zipIdx { store := base }

/-- The part of `FinalizeBlock` before execution. -/
def beginBlock (req : FinalizeBlockRequest) : Result BegunBlock := do
  a.requireReady
  refuseIf a.candidate.isSome (newError "a finalized block candidate is already pending commit")
  refuseIf (req.height ≠ a.committed.commitment.height + 1) (newError "finalize block height is out of sequence")
  a.requireProtocolSupport req.height
  let consensusParamUpdates ← a.consensusParamUpdates req.height
  let blockHash ← canonicalBlockHash req.hash
  let proposer ← a.proposer req.proposerAddress req.height
  let evidence ← a.proposalEvidenceState req.misbehavior req.height req.time
  return { consensusParamUpdates, blockHash, proposer, evidence }

/-- The commitment of a decided block. -/
def blockCommitment (req : FinalizeBlockRequest) (begun : BegunBlock) (execution : ProposalExecution)
    (txRoot receiptRoot stateRoot : String) : ApplicationCommitment :=
  let base := a.committed.commitment.nextBaseFeePerGas
  { protocol := protocolAtHeight a.genesis req.height, chainID := a.genesis.chainID, height := req.height
    blockHash := begun.blockHash, proposer := begun.proposer, gasLimit := a.genesis.blockGasLimit
    gasUsed := execution.gasUsed, baseFeePerGas := base
    nextBaseFeePerGas := nextBaseFee base execution.gasUsed a.genesis.blockGasLimit
    txRoot, receiptRoot, evidenceRoot := evidenceRoot begun.evidence.records, stateRoot
    epoch := if a.genesis.protocol = .v2 then validatorEpoch req.height a.policy.epochLength else 0
    validatorRoot := if a.genesis.protocol = .v2 then execution.store.validatorRoot else "" }

/-- The part of `FinalizeBlock` after execution. The tree is brought up to date on a clone. -/
def sealBlock (req : FinalizeBlockRequest) (begun : BegunBlock) (execution : ProposalExecution) :
    Result SealedBlock := do
  let protocol := protocolAtHeight a.genesis req.height
  let txRoot ← transactionRootForProtocol protocol execution.txs
  let receiptRoot ← receiptRootForProtocol protocol execution.receipts
  let flatTree := a.trees.objects.length
  let trees ← (applyStoreMutationsToSparseTree (a.trees.clone a.committed.flatTree) flatTree execution.store).mapError
    (GoError.annotate "update sparse state tree: ")
  let stateRoot ← stateRootForCommitted protocol execution.store trees flatTree
  let commitment := a.blockCommitment req begun execution txRoot receiptRoot stateRoot
  let validatorUpdates ← (if a.genesis.protocol = .v2 then do
      let lifecycle ← require execution.store.validatorLifecycle
        (newError "finalized validator lifecycle is missing")
      validatorUpdatesAtHeight lifecycle req.height
    else .ok begun.evidence.updates)
  return {
    candidate := {
      state := { store := execution.store, flatTree, commitment, appHash := applicationHash commitment }
      txs := execution.rawTxs, receipts := execution.receipts }
    trees, validatorUpdates }

/-- `FinalizeBlock`. -/
def finalizeBlock (req : FinalizeBlockRequest) : Action Application GoError FinalizeBlockResponse := fun a =>
  (do
    let begun ← Action.lift (a.beginBlock req)
    let execution ← haltIfFatal (GoError.annotate "decided block is invalid: ")
      (a.executeProposalFromStore runtime begun.evidence.store req.txs req.height begun.proposer maxProposalTxBytes true)
    let decided ← Action.lift (a.sealBlock req begun execution)
    Action.modify fun a => { a with candidate := some decided.candidate, trees := decided.trees }
    return {
      validatorUpdates := decided.validatorUpdates, consensusParamUpdates := begun.consensusParamUpdates
      appHash := decided.candidate.state.appHash } : Action Application GoError FinalizeBlockResponse) a

/-- The checks of `PrepareProposal`. -/
def beginProposal (req : PrepareProposalRequest) : Result (String × ProposalEvidenceState) := do
  a.requireReady
  refuseIf a.candidate.isSome (newError "cannot prepare a proposal while a finalized candidate is pending")
  refuseIf (req.height ≠ a.committed.commitment.height + 1) (newError "prepare proposal height is out of sequence")
  a.requireProtocolSupport req.height
  let proposer ← a.proposer req.proposerAddress req.height
  let evidence ← a.proposalEvidenceState req.misbehavior req.height req.time
  refuseIf (req.maxTxBytes ≤ 0) (newError "prepare proposal max transaction bytes must be positive")
  return (proposer, evidence)

/-- `PrepareProposal`; the transactions are returned. -/
def prepareProposal (req : PrepareProposalRequest) : Action Application GoError (List (List UInt8)) := fun a =>
  (do
    let begun ← Action.lift (a.beginProposal req)
    let maxBytes := if req.maxTxBytes > maxProposalTxBytes then maxProposalTxBytes else req.maxTxBytes
    let execution ← haltIfFatal id
      (a.executeProposalFromStore runtime begun.2.store req.txs req.height begun.1 maxBytes false)
    return execution.rawTxs : Action Application GoError (List (List UInt8))) a

/-- The checks of `ProcessProposal` that reject. The request has the fields of a decided block. -/
def acceptableProposal (req : FinalizeBlockRequest) : Result (String × ProposalEvidenceState) := do
  refuseIf (req.height ≠ a.committed.commitment.height + 1 ∨ a.candidate.isSome) (newError "")
  a.requireProtocolSupport req.height
  let _ ← canonicalBlockHash req.hash
  let proposer ← a.proposer req.proposerAddress req.height
  let evidence ← a.proposalEvidenceState req.misbehavior req.height req.time
  return (proposer, evidence)

/-- `ProcessProposal`. -/
def processProposal (req : FinalizeBlockRequest) : Action Application GoError ProposalStatus := fun a =>
  match a.requireReady, a.acceptableProposal req with
  | .error err, _ => (.error err, a)
  | .ok _, .error _ => (.ok .reject, a)
  | .ok _, .ok begun =>
    match a.executeProposalFromStore runtime begun.2.store req.txs req.height begun.1 maxProposalTxBytes true with
    | .ok _ => (.ok .accept, a)
    | .error err =>
      if isFatalExecutionError err then (.error err, { a with haltErr := some err }) else (.ok .reject, a)

/-- `CheckTx`; `known` says whether the request's type is one of the two. -/
def checkTx (known : Bool) (raw : List UInt8) : Action Application GoError CheckTxResponse := fun a =>
  let invalid := fun (err : GoError) => ({ code := codeInvalidTx, log := err.text } : CheckTxResponse)
  match (do a.requireReady; a.requireProtocolSupport (a.committed.commitment.height + 1) : Result Unit) with
  | .error err => (.error err, a)
  | .ok _ =>
    if !known then (.ok (invalid (newError "check transaction type is unsupported")), a)
    else match decodeTransaction raw a.genesis.chainID a.genesis.blockGasLimit with
      | .error err => (.ok (invalid err), a)
      | .ok tx =>
        let executor : Executor := { chainID := a.genesis.chainID, feeCollector := "", runtime }
        match (executor.executeWithContext a.committed.store tx (a.executionContext
            (a.committed.commitment.height + 1) a.committed.commitment.nextBaseFeePerGas)).2 with
        | .error err =>
          if isFatalExecutionError err then (.error err, { a with haltErr := some err }) else (.ok (invalid err), a)
        | .ok receipt => (.ok {
            code := codeOK, data := utf8Bytes receipt.json, gasWanted := tx.gasLimit.toInt64
            gasUsed := receipt.gasUsed.toInt64 }, a)

end Blocks

section Lifecycle

variable [Primitives]

/-- `persistLocked`: a saved store starts a new journal. -/
def persist (save : PersistedApplicationState → Result Unit) (committed : CommittedState)
    (proposers : GoMap String String) (txs : List (List UInt8)) (receipts : List Receipt) :
    Action Application GoError CommittedState := fun a =>
  match (save { committed, initialized := true, proposers, txs, receipts }).mapError
      (GoError.annotate "persist committed application state: ") with
  | .ok _ => (.ok { committed with store := committed.store.resetMutations }, a)
  | .error err => (.error err, { a with haltErr := some err })

/-- The state that `InitChain` commits to: version 2 adds the lifecycle of the genesis validators and of the
admitted ones. -/
def genesisState (a : Application) (identities : List ValidatorIdentity) : Result (CommittedState × SparseHeap) :=
  if a.genesis.protocol = .v2 then do
    let store ← a.committed.store.initializeValidatorLifecycle
      (identities ++ a.genesis.admissions.map ValidatorAdmissionCertificate.identity)
    let flatTree := a.trees.objects.length
    let trees ← (applyStoreMutationsToSparseTree (a.trees.clone a.committed.flatTree) flatTree store).mapError
      (GoError.annotate "update genesis sparse state tree: ")
    let commitment := { a.committed.commitment with stateRoot := store.root, validatorRoot := store.validatorRoot }
    return ({ store, flatTree, commitment, appHash := applicationHash commitment }, trees)
  else .ok (a.committed, a.trees)

/-- The checks of `InitChain` up to the binding of its validators. -/
def bindChain [DecodesJson GenesisDocument] (a : Application) (req : InitChainRequest) :
    Result (GoMap String String × List ValidatorIdentity) := do
  refuseIf a.closed (newError "application is closed")
  refuseIf a.initialized (newError "application is already initialized")
  refuseIf (req.chainID ≠ a.genesis.chainID) (newError ("init chain id " ++ quote req.chainID ++
    " does not match genesis " ++ quote a.genesis.chainID))
  refuseIf (req.initialHeight ≠ 0 ∧ req.initialHeight ≠ 1)
    (newError "protocol version 1 requires initial height 1")
  refuseIf (req.appStateBytes.length = 0) (newError "canonical genesis app state is required")
  let provided ← decodeGenesisDocument req.appStateBytes
  refuseIf (!sameGenesisDocument provided a.genesis)
    (newError "init chain app state does not match configured genesis")
  validateConsensusParamsForGenesis req.consensusParams a.genesis
  bindGenesisValidators req.validators a.committed.store.validators

/-- Install a saved state: its tree is published. -/
def install (committed : CommittedState) (trees : SparseHeap) (a : Application) : Application :=
  { a with
    committed := { committed with flatTree := trees.baseOf committed.flatTree }
    trees := trees.publish committed.flatTree }

/-- `InitChain`; the application hash is returned. -/
def initChain [DecodesJson GenesisDocument] (save : PersistedApplicationState → Result Unit) (req : InitChainRequest) :
    Action Application GoError (List UInt8) := fun a =>
  (do
    let bound ← Action.lift (a.bindChain req)
    let next ← Action.lift (a.genesisState bound.2)
    let committed ← persist save next.1 bound.1 [] []
    Action.modify fun a => { a.install committed next.2 with
      proposers := bound.1, initialized := true, mempool := newAppMempool committed.store }
    return committed.appHash : Action Application GoError (List UInt8)) a

/-- The chain the mempool executes for. -/
def rules (runtime : Core.Runtime) (a : Application) : ChainRules where
  chainID := a.genesis.chainID
  blockGasLimit := a.genesis.blockGasLimit
  runtime := runtime

variable [DecodesJson Transaction] (runtime : Core.Runtime)

/-- The mempool of `Commit`. The context is taken from the application before the candidate is installed. -/
def nextMempool (a : Application) (candidate : BlockCandidate) : Result AppMempool :=
  if candidate.state.commitment.height < maxInt64 then
    a.mempool.rebuild (a.rules runtime) (a.executionContext (candidate.state.commitment.height + 1)
      candidate.state.commitment.nextBaseFeePerGas) candidate.state.store candidate.txs
  else .ok (newAppMempool candidate.state.store)

/-- The checks of `Commit`. -/
def requireCandidate (a : Application) : Result BlockCandidate := do
  a.requireReady
  let candidate ← require a.candidate (newError "commit requires a finalized block candidate")
  refuseIf (candidate.state.commitment.height ≠ a.committed.commitment.height + 1)
    (newError "finalized block candidate height is out of sequence")
  return candidate

/-- `cometRetainHeight`. -/
def cometRetainHeight (height : Int64) (retainHeights : UInt64) : Int64 :=
  if retainHeights = 0 ∨ height ≤ 0 ∨ height.toUInt64 < retainHeights then 0
  else height - retainHeights.toInt64 + 1

/-- `Commit`; the height from which blocks are to be retained is returned. -/
def commit (save : PersistedApplicationState → Result Unit) : Action Application GoError Int64 := fun a =>
  (do
    let candidate ← Action.lift a.requireCandidate
    let nextPool ← haltIfFatal id (a.nextMempool runtime candidate)
    let committed ← persist save candidate.state a.proposers candidate.txs candidate.receipts
    Action.modify fun a => { a.install committed a.trees with
      committedTxs := candidate.txs, committedReceipts := candidate.receipts, candidate := none
      mempool := nextPool }
    return cometRetainHeight committed.commitment.height a.cometRetainHeights : Action Application GoError Int64) a

/-- `InsertTx`; the code is returned. -/
def insertTx (raw : List UInt8) : Action Application GoError UInt32 := fun a =>
  match a.requireReady with
  | .error err => (.error err, a)
  | .ok _ =>
    match a.mempool.insert (a.rules runtime) (a.executionContext (a.committed.commitment.height + 1)
        a.committed.commitment.nextBaseFeePerGas) raw with
    | .ok (pool, code) => (.ok code, { a with mempool := pool })
    | .error err =>
      if isFatalExecutionError err then (.error err, { a with haltErr := some err }) else (.ok codeInvalidTx, a)

end Lifecycle

end Application

end ChainLab.Abci
