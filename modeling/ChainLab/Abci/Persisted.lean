import ChainLab.Abci.Application

/-! What a stored application state must satisfy before it is saved, and again when it is loaded. -/

namespace ChainLab.Abci

open ChainLab.Lib ChainLab.Types ChainLab.Crypto ChainLab.State ChainLab.Core

section Persisted

variable [Primitives]

/-- The state root a persisted state should have. `treeRoot` is the root of its tree: at saving the application's, at loading
that of the tree built from the stored entries. For a state without a tree the root is computed from its store. -/
def expectedStateRoot (protocol : Protocol) (treeRoot : Option String) (store : Store) : Result String :=
  if protocol.usesSparseState then treeRoot.elim (stateRootForProtocol protocol store) .ok
  else stateRootForProtocol protocol store

/-- The check of one offence in `validatePersistedApplicationState`. -/
def validatePersistedOffence (height : Int64) (policy : ValidatorPolicy) (lifecycle : ValidatorLifecycle)
    (offence : ValidatorOffence) : Result Unit := do
  refuseIf (offence.observedHeight > height)
    (newError "protocol version 2 offence was observed after the committed height")
  let unmatched := newError "protocol version 2 offence removal does not match validator lifecycle"
  let identity ← require (identityByAccount lifecycle offence.validator) unmatched
  refuseIf (identity.inactiveHeight ≠ offence.removalHeight) unmatched
  let ratio := newError "protocol version 2 offence slash ratio does not match validator policy"
  let expectedSlash ← (evidenceSlashBasisPoints offence.type policy).mapError fun _ => ratio
  refuseIf (offence.slashBasisPoints ≠ expectedSlash) ratio

/-- The lifecycle of an initialized state, in `validatePersistedApplicationState`. -/
def validatePersistedLifecycle (genesis : GenesisDocument) (commitment : ApplicationCommitment) (store : Store) :
    Result Unit := do
  let policy := genesis.validatorPolicy.getD default
  let mismatch := newError "protocol version 2 validator root mismatch"
  let lifecycle ← require store.validatorLifecycle mismatch
  refuseIf (commitment.validatorRoot = "" ∨ commitment.validatorRoot ≠ store.validatorRoot) mismatch
  validateCanonicalHash "persisted validator root" commitment.validatorRoot
  refuseIf (commitment.epoch ≠ validatorEpoch commitment.height policy.epochLength)
    (newError "protocol version 2 validator epoch mismatch")
  (validateValidatorEpochSchedule lifecycle store.validators policy.epochLength policy.unbondingEpochs).mapError
    (GoError.annotate "protocol version 2 validator schedule: ")
  lifecycle.offences.sortedKeys.forM fun key =>
    validatePersistedOffence commitment.height policy lifecycle (GoMap.get lifecycle.offences key)

/-- The part of `validatePersistedApplicationState` about the lifecycle. -/
def validatePersistedValidators (genesis : GenesisDocument) (initialized : Bool) (commitment : ApplicationCommitment)
    (store : Store) : Result Unit :=
  let present := store.validatorLifecycle ≠ none ∨ commitment.validatorRoot ≠ "" ∨ commitment.epoch ≠ 0
  if !commitment.protocol.usesValidatorLifecycle then
    refuseIf present (newError "protocol version 1 commitment contains validator lifecycle state")
  else if initialized then validatePersistedLifecycle genesis commitment store
  else refuseIf present (newError "uninitialized protocol version 2 state contains a validator lifecycle")

/-- The part of `validatePersistedApplicationState` about the texts of the commitment. -/
def validatePersistedCommitment (commitment : ApplicationCommitment) : Result Unit := do
  validateCanonicalHash "persisted transaction root" commitment.txRoot
  validateCanonicalHash "persisted receipt root" commitment.receiptRoot
  validateCanonicalHash "persisted evidence root" commitment.evidenceRoot
  validateCanonicalHash "persisted state root" commitment.stateRoot
  if commitment.height = 0 then
    refuseIf (commitment.blockHash ≠ "" ∨ commitment.proposer ≠ "genesis")
      (newError "persisted genesis commitment is invalid")
  else do
    validateCanonicalHash "persisted block hash" commitment.blockHash
    refuseIf (¬IsCanonicalAddress commitment.proposer) (newError "persisted proposer address is not canonical")

/-- One round of the loop over proposers: the accounts seen so far. -/
def validatePersistedProposer (protocol : Protocol) (store : Store) (proposers : GoMap String String)
    (seenAccounts : Finset String) (consensusAddress : String) : Result (Finset String) := do
  let account := GoMap.get proposers consensusAddress
  let malformed := newError "persisted consensus address is not canonical"
  let decoded ← require (hexDecode (runes consensusAddress)) malformed
  refuseIf (decoded.length ≠ 20 ∨ hexEncode decoded ≠ runes consensusAddress) malformed
  refuseIf (¬IsCanonicalAddress account) (newError "persisted proposer account is not canonical")
  refuseIf (account ∉ store.validators) (newError "persisted proposer account is not an active validator")
  refuseIf (account ∈ seenAccounts) (newError "persisted proposer account is duplicated")
  checkWhen protocol.usesValidatorLifecycle (do
    let unbound := newError "persisted proposer binding does not match validator lifecycle identity"
    let identity ← require (store.validatorIdentityByConsensusAddress consensusAddress) unbound
    refuseIf (identity.account ≠ account) unbound)
  return insert account seenAccounts

/-- The part of `validatePersistedApplicationState` about the block and the proposers of an initialized state. -/
def validatePersistedBlock [DecodesJson Transaction] (genesis : GenesisDocument) (value : PersistedApplicationState) :
    Result Unit := do
  let commitment := value.committed.commitment
  refuseIf (value.txs.length ≠ value.receipts.length ∨ value.txs.length > maxTransactionsPerBlock)
    (newError "persisted transaction and receipt counts are invalid")
  let decoded ← value.txs.zipIdx.mapM fun entry =>
    (decodeTransaction entry.1 genesis.chainID genesis.blockGasLimit).mapError
      (GoError.annotate ("persisted transaction " ++ itoa entry.2 ++ ": "))
  let expectedTxRoot ← transactionRootForProtocol commitment.protocol decoded
  refuseIf (expectedTxRoot ≠ commitment.txRoot) (newError "persisted transaction root mismatch")
  let expectedReceiptRoot ← receiptRootForProtocol commitment.protocol value.receipts
  refuseIf (expectedReceiptRoot ≠ commitment.receiptRoot) (newError "persisted receipt root mismatch")
  refuseIf (GoMap.len value.proposers ≠ value.committed.store.validators.length)
    (newError "persisted proposer bindings do not match validator count")
  let _ ← value.proposers.sortedKeys.foldlM
    (validatePersistedProposer commitment.protocol value.committed.store value.proposers) ∅

/-- `validatePersistedApplicationState`. -/
def validatePersistedApplicationState [DecodesJson Transaction] (genesis : GenesisDocument) (genesisHash : String)
    (treeRoot : Option String) (value : PersistedApplicationState) : Result Unit := do
  let commitment := value.committed.commitment
  let store := value.committed.store
  refuseIf (genesisHash = "" ∨ commitment.protocol ≠ protocolAtHeight genesis commitment.height ∨
      commitment.chainID ≠ genesis.chainID)
    (newError "persisted application commitment identity is invalid")
  refuseIf (commitment.height < 0 ∨ commitment.gasLimit ≠ genesis.blockGasLimit)
    (newError "persisted application commitment height or gas limit is invalid")
  let expected ← expectedStateRoot commitment.protocol treeRoot store
  refuseIf (commitment.stateRoot ≠ expected) (newError "persisted application state root mismatch")
  validatePersistedValidators genesis value.initialized commitment store
  validatePersistedCommitment commitment
  refuseIf (value.committed.appHash ≠ applicationHash commitment) (newError "persisted application hash mismatch")
  if !value.initialized then
    refuseIf (commitment.height ≠ 0 ∨ GoMap.len value.proposers ≠ 0 ∨ value.txs.length ≠ 0 ∨
        value.receipts.length ≠ 0)
      (newError "uninitialized application state must be empty height 0")
  else validatePersistedBlock genesis value

end Persisted

end ChainLab.Abci
