import ChainLab.Core.Fees
import ChainLab.State.Lifecycle

/-! Runtime admission of validators by certificate. -/

namespace ChainLab.Core

open ChainLab.Lib ChainLab.Types ChainLab.Crypto ChainLab.State

def runtimeValidatorAdmissionDomain : String := "chainlab-runtime-validator-admission-v1"
def maxRuntimeAdmissionCertificateBytes : Nat := 512 * 1024
def runtimeAdmissionByteGas : UInt64 := 16
def runtimeAdmissionSignatureGas : UInt64 := 5000

structure ExecutionContext where
  blockHeight : UInt64 := 0
  baseFeePerGas : UInt64 := 0
  validatorRuntimeAdmissions : Bool := false
  validatorEpochLength : Int64 := 0
  validatorRuntimeAdmissionWindow : Int64 := 0
  validatorAdmissionAuthorizationRoot : String := ""

/-- `RuntimeValidatorAdmissionSigningBytes`. -/
def runtimeValidatorAdmissionSigningBytes [Primitives] (chainID : String)
    (certificate : RuntimeValidatorAdmissionCertificate) : Result (List UInt8) := do
  validateChainID chainID
  refuseIf (certificate.authorizationHeight < 0)
    (newError "runtime validator admission authorization height must be non-negative")
  validateCanonicalHash "runtime validator admission root" certificate.validatorRoot
  validateValidatorIdentity certificate.identity
  return utf8Bytes (jsonObject [jsonField "domain" (jsonString runtimeValidatorAdmissionDomain),
    jsonField "chain_id" (jsonString chainID),
    jsonField "authorization_height" (jsonInt certificate.authorizationHeight),
    jsonField "validator_root" (jsonString certificate.validatorRoot),
    jsonField "identity" certificate.identity.json])

/-- `EncodeRuntimeValidatorAdmission`. -/
def encodeRuntimeValidatorAdmission (certificate : RuntimeValidatorAdmissionCertificate) : Result String := do
  let raw := String.ofList certificate.json
  refuseIf (len raw > maxRuntimeAdmissionCertificateBytes)
    (newError "runtime validator admission exceeds 524288 bytes")
  return raw

/-- `parseRuntimeValidatorAdmission`: only the canonical encoding of a certificate is read. -/
def parseRuntimeValidatorAdmission [Primitives] (raw : String) :
    Result RuntimeValidatorAdmissionCertificate := do
  refuseIf (raw = "" ∨ len raw > maxRuntimeAdmissionCertificateBytes)
    (newError "runtime validator admission certificate must contain between 1 and 524288 bytes")
  let certificate ← (Primitives.decodeAdmission raw).mapError newError
  let canonical ← encodeRuntimeValidatorAdmission certificate
  refuseIf (raw ≠ canonical) (newError "runtime validator admission is not canonically encoded")
  return certificate

/-- `validateRuntimeValidatorAdmissionMessage`. -/
def validateRuntimeValidatorAdmissionMessage [Primitives] (tx : Transaction) : Result Unit := do
  refuseIf (tx.toAddress ≠ "" ∨ tx.value ≠ 0 ∨ tx.batch.length ≠ 0 ∨ GoMap.len tx.payload ≠ 1)
    (newError "validator join supports only one certificate payload")
  let _ ← parseRuntimeValidatorAdmission (GoMap.get tx.payload "certificate")

/-- `validateRuntimeAdmissionAuthorization`. -/
def validateRuntimeAdmissionAuthorization (certificate : RuntimeValidatorAdmissionCertificate)
    (context : ExecutionContext) : Result Unit := do
  let blockHeight := context.blockHeight.toInt64
  refuseIf (certificate.validatorRoot ≠ context.validatorAdmissionAuthorizationRoot)
    (newError "runtime validator admission does not authorize the current state")
  let maximumAge :=
    if context.validatorRuntimeAdmissionWindow > 0 then context.validatorRuntimeAdmissionWindow else 1
  refuseIf (certificate.authorizationHeight ≥ blockHeight ∨
      blockHeight - certificate.authorizationHeight > maximumAge)
    (newError "runtime validator admission authorization height is outside the current epoch window")

/-- `estimateRuntimeValidatorAdmissionGas`. -/
def estimateRuntimeValidatorAdmissionGas [Primitives] (raw : String) : Result UInt64 := do
  let certificate ← parseRuntimeValidatorAdmission raw
  let base ← estimateGas .validatorJoin
  let byteGas ← checkedMul (UInt64.ofNat (len raw)) runtimeAdmissionByteGas
  let signatureGas ← checkedMul (UInt64.ofNat (certificate.signatures.getD []).length)
    runtimeAdmissionSignatureGas
  let total ← checkedAdd base byteGas
  checkedAdd total signatureGas

/-- The identities that may sign at `signerHeight`. -/
def admissionSigners (lifecycle : ValidatorLifecycle) (signerHeight : Int64) : List ValidatorIdentity :=
  ((orderedIdentities lifecycle).map Prod.snd).filter fun identity =>
    !(signerHeight < identity.activeHeight ||
      (identity.inactiveHeight ≠ 0 && signerHeight ≥ identity.inactiveHeight))

/-- One round of the signature loop: the signer's power is added and signers are increasing. -/
def scanAdmissionSignature [Primitives] (signers : List ValidatorIdentity) (payload : List UInt8)
    (scan : Int64 × String) (entry : RuntimeValidatorAdmissionSignature × Nat) : Result (Int64 × String) := do
  let item := entry.1
  let about := fun text => newError ("runtime validator admission signature " ++ itoa entry.2 ++ text)
  refuseIf (¬IsCanonicalAddress item.validator ∨ item.validator ≤ scan.2) (about " signer ordering is invalid")
  let identity ← require (signers.find? fun identity => identity.account = item.validator)
    (about " is not from an active validator")
  (validateCanonicalSignature "runtime validator admission signature" item.signature).mapError fun _ =>
    about " is invalid"
  refuseIf (!verify item.validator payload item.signature) (about " is invalid")
  return (scan.1 + identity.power, item.validator)

/-- `validateRuntimeAdmissionQuorum`. -/
def validateRuntimeAdmissionQuorum [Primitives] (chainID : String)
    (certificate : RuntimeValidatorAdmissionCertificate) (lifecycle : ValidatorLifecycle) : Result Unit := do
  let signatures := certificate.signatures.getD []
  refuseIf (signatures.length = 0 ∨ signatures.length > GoMap.len lifecycle.validators)
    (newError "runtime validator admission signature count is invalid")
  let payload ← runtimeValidatorAdmissionSigningBytes chainID certificate
  let signerHeight := if certificate.authorizationHeight = 0 then 1 else certificate.authorizationHeight
  let signers := admissionSigners lifecycle signerHeight
  let totalPower := signers.foldl (fun total identity => total + identity.power) 0
  let signed ← signatures.zipIdx.foldlM (scanAdmissionSignature signers payload) (0, "")
  refuseIf (totalPower ≤ 0 ∨ signed.1 * 3 ≤ totalPower * 2)
    (newError "runtime validator admission does not have more than two-thirds voting power")

/-- `executeRuntimeValidatorAdmission`. -/
def executeRuntimeValidatorAdmission [Primitives] (store : Store) (tx : Transaction)
    (context : ExecutionContext) : Result (Store × Event) := do
  refuseIf (!context.validatorRuntimeAdmissions) (newError "runtime validator admissions are disabled")
  refuseIf (context.blockHeight = 0 ∨ context.blockHeight > maxInt64.toUInt64 ∨
      context.validatorEpochLength < 2 ∨ context.validatorRuntimeAdmissionWindow < 0 ∨
      context.validatorRuntimeAdmissionWindow > context.validatorEpochLength)
    (newError "runtime validator admission context is invalid")
  let certificate ← parseRuntimeValidatorAdmission (GoMap.get tx.payload "certificate")
  let identity := certificate.identity
  refuseIf (identity.account ≠ tx.fromAddress)
    (newError "validator join sender must equal the candidate account")
  validateRuntimeAdmissionAuthorization certificate context
  refuseIf (store.validatorIdentityByAccount identity.account ≠ none)
    (newError "runtime validator admission candidate already exists")
  let minimumActivation := context.blockHeight.toInt64 + 2
  refuseIf (identity.activeHeight < minimumActivation ∨
      (identity.activeHeight - 1) % context.validatorEpochLength ≠ 0 ∨
      identity.inactiveHeight ≠ 0 ∨ identity.unbondingHeight ≠ 0)
    (newError "runtime validator admission activation schedule is invalid")
  let mismatch := newError "runtime validator admission power does not match candidate stake"
  let power ← (validatorPowerFromStake (store.stakeOf identity.account)).mapError fun _ => mismatch
  refuseIf (identity.power ≠ power) mismatch
  let lifecycle ← require store.validatorLifecycle
    (newError "runtime validator admission requires validator lifecycle state")
  validateRuntimeAdmissionQuorum tx.chainID certificate lifecycle
  let store ← store.setValidatorLifecycle
    { lifecycle with validators := lifecycle.validators.insert identity.consensusAddress identity }
  return (store, { type := "validator.admission_scheduled", attributes := GoMap.ofList [
    ("validator", identity.account), ("consensus_address", identity.consensusAddress),
    ("power", String.ofList (jsonInt identity.power)),
    ("active_height", String.ofList (jsonInt identity.activeHeight))] })

end ChainLab.Core
