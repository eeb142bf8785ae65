import ChainLab.Core.FeeMarket
import ChainLab.State.Snapshot
import ChainLab.Types.Raw

/-! Protocol versions, the genesis document with every check it passes, and the consensus parameters that
must agree with it. -/

namespace ChainLab.Abci

open ChainLab.Lib ChainLab.Types ChainLab.Crypto ChainLab.State

def maxEvidenceBytes : Int64 := 1024 * 1024
def maxValidatorEpochLength : Int64 := 1000000

/-! ### Versions -/

/-- The protocol a genesis or a commitment names. A name outside the list is kept as it was read. -/
inductive Protocol where
  | v1 | v2 | v3 | v4 | v5
  | unknown (name : String)
  deriving DecidableEq, Inhabited

namespace Protocol

def name : Protocol → String
  | .v1 => "chainlab-v1"
  | .v2 => "chainlab-v2"
  | .v3 => "chainlab-v3"
  | .v4 => "chainlab-v4"
  | .v5 => "chainlab-v5"
  | .unknown name => name

/-- `appVersion`. -/
def appVersion : Protocol → UInt64
  | .v5 => 5
  | .v4 => 4
  | .v3 => 3
  | .v2 => 2
  | _ => 1

/-- `protocolUsesValidatorLifecycle`. -/
def usesValidatorLifecycle (p : Protocol) : Bool := p = .v2 || p = .v3 || p = .v4 || p = .v5

/-- `protocolUsesMerkleProofs`. -/
def usesMerkleProofs (p : Protocol) : Bool := p = .v3 || p = .v4 || p = .v5

/-- `protocolUsesSparseState`. -/
def usesSparseState (p : Protocol) : Bool := p = .v4 || p = .v5

end Protocol

/-! ### Genesis -/

structure ValidatorPolicy where
  epochLength : Int64
  unbondingEpochs : Int64 := 0
  runtimeAdmissions : Bool := false
  runtimeAdmissionWindow : Int64 := 0
  duplicateVoteSlashBasisPoints : UInt32
  lightClientAttackSlashBasisPoints : UInt32
  evidenceMaxAgeNumBlocks : Int64
  evidenceMaxAgeDurationNanos : Int64
  deriving DecidableEq, Inhabited

structure ProtocolUpgrade where
  height : Int64
  protocol : Protocol
  deriving DecidableEq, Inhabited

structure ValidatorAdmissionSignature where
  validator : String
  signature : String
  deriving DecidableEq, Inhabited

structure ValidatorAdmissionCertificate where
  identity : ValidatorIdentity
  signatures : List ValidatorAdmissionSignature
  deriving DecidableEq, Inhabited

structure GenesisDocument where
  protocol : Protocol
  chainID : String
  blockGasLimit : UInt64
  state : Snapshot
  validatorPolicy : Option ValidatorPolicy := none
  admissions : List ValidatorAdmissionCertificate := []
  upgrades : List ProtocolUpgrade := []
  deriving DecidableEq, Inhabited

private def heightField (name : String) (value : Int64) : Option (String × JsonText) :=
  jsonOmitEmpty (value = 0) name (jsonInt value)

def ValidatorPolicy.json (policy : ValidatorPolicy) : JsonText :=
  jsonObject [jsonField "epoch_length" (jsonInt policy.epochLength),
    heightField "unbonding_epochs" policy.unbondingEpochs,
    jsonOmitEmpty (!policy.runtimeAdmissions) "runtime_admissions" (jsonBool policy.runtimeAdmissions),
    heightField "runtime_admission_window" policy.runtimeAdmissionWindow,
    jsonField "duplicate_vote_slash_basis_points" (jsonUint policy.duplicateVoteSlashBasisPoints.toUInt64),
    jsonField "light_client_attack_slash_basis_points" (jsonUint policy.lightClientAttackSlashBasisPoints.toUInt64),
    jsonField "evidence_max_age_num_blocks" (jsonInt policy.evidenceMaxAgeNumBlocks),
    jsonField "evidence_max_age_duration_nanos" (jsonInt policy.evidenceMaxAgeDurationNanos)]

def ProtocolUpgrade.json (upgrade : ProtocolUpgrade) : JsonText :=
  jsonObject [jsonField "height" (jsonInt upgrade.height), jsonField "protocol" (jsonString upgrade.protocol.name)]

def ValidatorAdmissionSignature.json (item : ValidatorAdmissionSignature) : JsonText :=
  jsonObject [jsonField "validator" (jsonString item.validator), jsonField "signature" (jsonString item.signature)]

def ValidatorAdmissionCertificate.json (certificate : ValidatorAdmissionCertificate) : JsonText :=
  jsonObject [jsonField "identity" certificate.identity.json,
    jsonField "signatures" (jsonArray (certificate.signatures.map ValidatorAdmissionSignature.json))]

def GenesisDocument.json (document : GenesisDocument) : JsonText :=
  jsonObject [jsonField "protocol" (jsonString document.protocol.name),
    jsonField "chain_id" (jsonString document.chainID), jsonField "block_gas_limit" (jsonUint document.blockGasLimit),
    jsonField "state" document.state.json,
    document.validatorPolicy.map fun policy => ("validator_policy", policy.json),
    jsonOmitEmpty document.admissions.isEmpty "validator_admissions"
      (jsonArray (document.admissions.map ValidatorAdmissionCertificate.json)),
    jsonOmitEmpty document.upgrades.isEmpty "upgrades" (jsonArray (document.upgrades.map ProtocolUpgrade.json))]

/-- `protocolAtHeight`: the upgrades are read until one lies above the height. -/
def protocolAtHeight (genesis : GenesisDocument) (height : Int64) : Protocol :=
  (genesis.upgrades.takeWhile fun upgrade => ¬height < upgrade.height).foldl
    (fun _ upgrade => upgrade.protocol) genesis.protocol

/-- `appVersionAtHeight`. -/
def appVersionAtHeight (genesis : GenesisDocument) (height : Int64) : UInt64 :=
  (protocolAtHeight genesis height).appVersion

/-- `nextApplicationHeight`. -/
def nextApplicationHeight (height : Int64) : Int64 := if height ≥ maxInt64 then maxInt64 else height + 1

/-- `normalizeMaxAppVersion`. -/
def normalizeMaxAppVersion (value : UInt64) : Result UInt64 :=
  if value = 0 then .ok 5
  else do
    refuseIf (value < 1 ∨ value > 5) (newError "maximum application version must be between 1 and 5")
    return value

/-- `validateValidatorPolicy`. -/
def validateValidatorPolicy (policy : ValidatorPolicy) : Result Unit := do
  refuseIf (policy.epochLength < 2 ∨ policy.epochLength > maxValidatorEpochLength)
    (newError "epoch length must be between 2 and 1000000")
  refuseIf (policy.unbondingEpochs ≠ 0 ∧ (policy.unbondingEpochs < 2 ∨ policy.unbondingEpochs > 1000))
    (newError "unbonding epochs must be zero or between 2 and 1000")
  refuseIf (policy.runtimeAdmissionWindow < 0 ∨ policy.runtimeAdmissionWindow > policy.epochLength ∨
      (policy.runtimeAdmissionWindow > 0 ∧ !policy.runtimeAdmissions))
    (newError "runtime admission window must be zero or at most one enabled admission epoch")
  refuseIf (policy.duplicateVoteSlashBasisPoints = 0 ∨ policy.duplicateVoteSlashBasisPoints > 10000)
    (newError "duplicate-vote slash ratio must be between 1 and 10000 basis points")
  refuseIf (policy.lightClientAttackSlashBasisPoints = 0 ∨ policy.lightClientAttackSlashBasisPoints > 10000)
    (newError "light-client-attack slash ratio must be between 1 and 10000 basis points")
  refuseIf (policy.evidenceMaxAgeNumBlocks ≤ 0 ∨ policy.evidenceMaxAgeDurationNanos ≤ 0)
    (newError "evidence retention must be positive")

/-- The upgrades in the order they must come. -/
def upgradeTargets : List Protocol := [.v3, .v4, .v5]

/-- One round of `validateProtocolUpgrades`, on the height of the upgrade before. -/
def scanUpgrade (previous : Option Int64) (entry : ProtocolUpgrade × Protocol × Nat) : Result (Option Int64) := do
  refuseIf (entry.1.height < 2) (newError "protocol upgrade height must be at least 2")
  refuseIf (∃ height ∈ previous, entry.1.height ≤ height)
    (newError "protocol upgrade heights must be strictly increasing")
  refuseIf (entry.1.protocol ≠ entry.2.1) (newError ("protocol upgrade " ++ itoa (entry.2.2 + 1) ++
    " must target " ++ quote entry.2.1.name))
  return some entry.1.height

/-- `validateProtocolUpgrades`. -/
def validateProtocolUpgrades (genesis : GenesisDocument) : Result Unit :=
  if genesis.upgrades.length = 0 then .ok ()
  else do
    refuseIf (genesis.protocol ≠ .v2) (newError "protocol upgrades currently require a chainlab-v2 genesis")
    refuseIf (genesis.upgrades.length > 3) (newError "at most three protocol upgrades are supported")
    let _ ← (genesis.upgrades.zip upgradeTargets.zipIdx).foldlM scanUpgrade none

/-! ### Admissions -/

def validatorAdmissionDomain : String := "chainlab-validator-admission-v1"
def maxValidatorAdmissionCertificates : Nat := 64

section Genesis

variable [Primitives]

/-- `ValidatorAdmissionSigningBytes`. -/
def validatorAdmissionSigningBytes (chainID : String) (identity : ValidatorIdentity) : Result (List UInt8) := do
  validateChainID chainID
  validateValidatorIdentity identity
  return utf8Bytes (jsonObject [jsonField "domain" (jsonString validatorAdmissionDomain),
    jsonField "chain_id" (jsonString chainID), jsonField "identity" identity.json])

/-- One round of the signature loop, on the validator before. -/
def scanGenesisSignature (payload : List UInt8) (genesis : List String) (previous : String)
    (entry : ValidatorAdmissionSignature × Nat) : Result String := do
  let item := entry.1
  let about := fun text => newError ("signature " ++ itoa entry.2 ++ text)
  refuseIf (¬IsCanonicalAddress item.validator) (about " validator is not canonical")
  refuseIf (item.validator ≤ previous) (newError "certificate signatures must be ordered by validator")
  refuseIf (item.validator ∉ genesis) (about " is not from a genesis validator")
  (validateCanonicalSignature "validator admission signature" item.signature).mapError
    (GoError.annotate ("signature " ++ itoa entry.2 ++ ": "))
  refuseIf (!verify item.validator payload item.signature) (about " does not authorize the admission")
  return item.validator

/-- `validateAdmissionSignatures`; the genesis accounts are the set of them. -/
def validateAdmissionSignatures (chainID : String) (identity : ValidatorIdentity)
    (signatures : List ValidatorAdmissionSignature) (genesis : List String) : Result Unit := do
  let members := genesis.dedup.length
  let quorum := members * 2 / 3 + 1
  refuseIf (signatures.length < quorum ∨ signatures.length > members)
    (newError ("certificate requires between " ++ itoa quorum ++ " and " ++ itoa members ++ " signatures"))
  let payload ← validatorAdmissionSigningBytes chainID identity
  let _ ← signatures.zipIdx.foldlM (scanGenesisSignature payload genesis) ""

/-- What the loop over admissions has seen so far. -/
structure AdmissionScan where
  seenAccounts : List String := []
  seenConsensusAddresses : List String := []
  previousConsensusAddress : String := ""
  totalSignatures : Nat := 0

/-- One round of the loop of `validateGenesisAdmissions`. -/
def scanAdmission (document : GenesisDocument) (policy : ValidatorPolicy) (store : Store) (scan : AdmissionScan)
    (entry : ValidatorAdmissionCertificate × Nat) : Result AdmissionScan := do
  let certificate := entry.1
  let identity := certificate.identity
  let about := fun text => newError ("validator admission " ++ itoa entry.2 ++ text)
  let wrap := GoError.annotate ("validator admission " ++ itoa entry.2 ++ ": ")
  refuseIf (certificate.signatures.length > maxValidators - scan.totalSignatures)
    (newError "validator admissions exceed 4096 total signatures")
  (validateValidatorIdentity identity).mapError
    (GoError.annotate ("validator admission " ++ itoa entry.2 ++ " identity: "))
  refuseIf (identity.account ∈ store.validators) (about " duplicates a genesis account")
  refuseIf (identity.account ∈ scan.seenAccounts) (about " duplicates an account")
  refuseIf (identity.consensusAddress ∈ scan.seenConsensusAddresses) (about " duplicates a consensus address")
  refuseIf (identity.consensusAddress ≤ scan.previousConsensusAddress)
    (newError "validator admissions must be ordered by consensus address")
  refuseIf (identity.activeHeight < 3 ∨ (identity.activeHeight - 1) % policy.epochLength ≠ 0 ∨
      identity.inactiveHeight ≠ 0)
    (about " must activate on a future epoch without a removal")
  let power ← (validatorPowerFromStake (store.stakeOf identity.account)).mapError wrap
  refuseIf (identity.power ≠ power) (about (" power " ++ String.ofList (jsonInt identity.power) ++
    " does not match stake-derived power " ++ String.ofList (jsonInt power)))
  (validateAdmissionSignatures document.chainID identity certificate.signatures store.validators).mapError wrap
  return {
    seenAccounts := identity.account :: scan.seenAccounts
    seenConsensusAddresses := identity.consensusAddress :: scan.seenConsensusAddresses
    previousConsensusAddress := identity.consensusAddress
    totalSignatures := scan.totalSignatures + certificate.signatures.length }

/-- `validateGenesisAdmissions`. -/
def validateGenesisAdmissions (document : GenesisDocument) (store : Store) : Result Unit :=
  if document.admissions.length = 0 then .ok ()
  else do
    let versionTwo := newError "validator admissions require protocol version 2"
    refuseIf (document.protocol ≠ .v2) versionTwo
    let policy ← require document.validatorPolicy versionTwo
    refuseIf (document.admissions.length > maxValidatorAdmissionCertificates)
      (newError "validator admissions exceed 64 certificates")
    -- the source compares signed integers: more validators than the limit leave no room either
    refuseIf (document.admissions.length + store.validators.length > maxValidators)
      (newError "validator admissions exceed the 4096 identity limit")
    let _ ← document.admissions.zipIdx.foldlM (scanAdmission document policy store) {}

/-- The check of a genesis protocol against its policy. -/
def validateGenesisProtocol (document : GenesisDocument) : Result Unit :=
  match document.protocol with
  | .v1 => refuseIf (document.validatorPolicy ≠ none)
      (newError "protocol version 1 must not define a validator policy")
  | .v2 => do
    let policy ← require document.validatorPolicy (newError "protocol version 2 requires a validator policy")
    (validateValidatorPolicy policy).mapError (GoError.annotate "invalid validator policy: ")
  | _ => .error (newError "genesis protocol must be \"chainlab-v1\" or \"chainlab-v2\"")

/-- `validateGenesisDocument`. -/
def validateGenesisDocument (document : GenesisDocument) : Result Store := do
  validateGenesisProtocol document
  validateProtocolUpgrades document
  (validateChainID document.chainID).mapError (GoError.annotate "invalid genesis chain id: ")
  refuseIf (document.blockGasLimit = 0 ∨ document.blockGasLimit > maxInt64.toUInt64)
    (newError "genesis block gas limit must fit a positive int64")
  let store ← (newStoreFromSnapshot document.state).mapError (GoError.annotate "invalid genesis state: ")
  refuseIf (store.validators.length = 0) (newError "genesis validator set is required")
  refuseIf (store.validatorLifecycle ≠ none)
    (newError "genesis state must not contain an initialized validator lifecycle")
  validateGenesisAdmissions document store
  return store

/-- `GenesisDocument.CanonicalBytes`. -/
def GenesisDocument.canonicalBytes (document : GenesisDocument) : Result (List UInt8) := do
  let store ← validateGenesisDocument document
  return utf8Bytes (GenesisDocument.json { document with state := store.snapshot })

/-- `decodeGenesisDocument`. -/
def decodeGenesisDocument [DecodesJson GenesisDocument] (raw : List UInt8) : Result GenesisDocument := do
  let document ← require (DecodesJson.decodeJson raw) (newError "decode genesis app state")
  let _ ← validateGenesisDocument document
  return document

/-- `sameGenesisDocument`. -/
def sameGenesisDocument (left right : GenesisDocument) : Bool :=
  match left.canonicalBytes, right.canonicalBytes with
  | .ok leftBytes, .ok rightBytes => leftBytes = rightBytes
  | _, _ => false

end Genesis

/-! ### Consensus parameters -/

/-- The parts of CometBFT's consensus parameters that are read; a missing part is `none`. -/
structure ConsensusParams where
  /-- `MaxBytes` and `MaxGas`. -/
  block : Option (Int64 × Int64)
  pubKeyTypes : Option (List String)
  voteExtensionsEnableHeight : Option Int64
  /-- `MaxAgeNumBlocks`, `MaxAgeDuration` and `MaxBytes`. -/
  evidence : Option (Int64 × Int64 × Int64)
  appVersion : Option UInt64

/-- `validateConsensusParamsForGenesis`. -/
def validateConsensusParamsForGenesis (params : Option ConsensusParams) (genesis : GenesisDocument) :
    Result Unit := do
  let missing := newError "CometBFT block consensus parameters are required"
  let params ← require params missing
  let block ← require params.block missing
  refuseIf (block.1 ≠ Int64.ofNat maxBlockBytes) (newError "CometBFT max block bytes must equal 16777216")
  refuseIf (block.2 ≠ genesis.blockGasLimit.toInt64)
    (newError ("CometBFT max block gas must equal " ++ formatUint genesis.blockGasLimit))
  refuseIf (params.pubKeyTypes ≠ some ["secp256k1"])
    (newError "CometBFT validators must use only secp256k1 public keys")
  refuseIf (∃ height ∈ params.voteExtensionsEnableHeight, height ≠ 0)
    (newError ("vote extensions are disabled in " ++ genesis.protocol.name))
  let retention := newError "positive CometBFT evidence retention is required"
  let evidence ← require params.evidence retention
  refuseIf (evidence.1 ≤ 0 ∨ evidence.2.1 ≤ 0) retention
  refuseIf (evidence.2.2 ≤ 0 ∨ evidence.2.2 > maxEvidenceBytes)
    (newError "CometBFT evidence max bytes must be between 1 and 1048576")
  if genesis.protocol = .v2 then
    let policy ← require genesis.validatorPolicy (newError "protocol version 2 validator policy is missing")
    refuseIf (evidence.1 ≠ policy.evidenceMaxAgeNumBlocks ∨ evidence.2.1 ≠ policy.evidenceMaxAgeDurationNanos)
      (newError "CometBFT evidence retention does not match the protocol version 2 validator policy")
    refuseIf (params.appVersion ≠ some 2) (newError "CometBFT application version must equal 2")

end ChainLab.Abci
