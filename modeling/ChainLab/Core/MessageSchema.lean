import ChainLab.Core.Admission
import ChainLab.Core.Recovery

/-! The schema a transaction passes before anything else is looked at, and its intrinsic gas. -/

namespace ChainLab.Core

open ChainLab.Lib ChainLab.Types ChainLab.Crypto ChainLab.State ChainLab.Contracts

/-- `requireCanonicalAddress`. -/
def requireCanonicalAddress (field address : String) : Result Unit := do
  let normalized ← (Crypto.normalizeAddress address).mapError (GoError.annotate (field ++ " "))
  refuseIf (address ≠ normalized) (newError (field ++ " address is not canonically encoded"))

/-- `requirePayloadFields`. -/
def requirePayloadFields (payload : Fields) (schema : String) (allowed : List String) : Result Unit :=
  match payload.sortedKeys.find? fun field => field ∉ allowed with
  | some field => .error (newError (schema ++ " payload contains unsupported field " ++ quote field))
  | none => .ok ()

/-- `parseWASMUploadPayload`. -/
def parseWASMUploadPayload (payload : Fields) : Result (List UInt8) := do
  refuseIf (GoMap.len payload ≠ 1) (newError "wasm upload payload must contain only bytecode")
  let raw ← require (payload.lookup "bytecode") (newError "wasm upload payload must contain only bytecode")
  refuseIf (raw = "") (newError "wasm upload requires bytecode")
  refuseIf (raw ≠ trimSpace raw ∨ !hasPrefix raw "0x" ∨ raw ≠ toLower raw)
    (newError "wasm bytecode must be canonical 0x-prefixed lowercase hex")
  let digits := dropRunes 2 raw
  refuseIf (len digits > Contracts.maxWASMModuleBytes * 2) (newError "wasm module size exceeds 524288 bytes")
  let bytecode ← require (hexDecode (runes digits)) (newError "invalid wasm bytecode hex")
  refuseIf (bytecode = []) (newError "wasm bytecode is required")
  return bytecode

structure ValidatorSlashEvidence where
  target : String
  height : UInt64
  firstBlockHash : String
  firstSignature : String
  secondBlockHash : String
  secondSignature : String

/-- `validateSlashEvidenceShape`. -/
def validateSlashEvidenceShape (evidence : ValidatorSlashEvidence) : Result Unit := do
  refuseIf (¬IsCanonicalAddress evidence.target) (newError "slash target is not canonically encoded")
  refuseIf (evidence.firstBlockHash = evidence.secondBlockHash)
    (newError "slash evidence must contain two distinct block hashes")
  validateCanonicalHash "first slash evidence block hash" evidence.firstBlockHash
  validateCanonicalHash "second slash evidence block hash" evidence.secondBlockHash
  validateCanonicalSignature "first slash evidence signature" evidence.firstSignature
  validateCanonicalSignature "second slash evidence signature" evidence.secondSignature

/-- `parseSlashPayload`. -/
def parseSlashPayload (payload : Fields) : Result ValidatorSlashEvidence := do
  requirePayloadFields payload "validator slash"
    ["target", "height", "first_block_hash", "first_signature", "second_block_hash", "second_signature"]
  let malformed := newError "slash evidence height must be a positive canonical integer"
  let height ← require (parseUint (GoMap.get payload "height")) malformed
  refuseIf (height = 0 ∨ formatUint height ≠ GoMap.get payload "height") malformed
  let evidence : ValidatorSlashEvidence := {
    target := GoMap.get payload "target"
    height
    firstBlockHash := GoMap.get payload "first_block_hash"
    firstSignature := GoMap.get payload "first_signature"
    secondBlockHash := GoMap.get payload "second_block_hash"
    secondSignature := GoMap.get payload "second_signature" }
  validateSlashEvidenceShape evidence
  return evidence

/-- `validateSlashEvidence`. -/
def validateSlashEvidence [Primitives] (chainID : String) (evidence : ValidatorSlashEvidence) :
    Result Unit := do
  validateSlashEvidenceShape evidence
  let message := finalityVoteSigningBytes chainID evidence.height
  refuseIf (!verify evidence.target (message evidence.firstBlockHash) evidence.firstSignature ∨
      !verify evidence.target (message evidence.secondBlockHash) evidence.secondSignature)
    (newError "slash evidence signatures are invalid")

/-- `validateEthereumType2Schema`. -/
def validateEthereumType2Schema [Primitives] (tx : Transaction) : Result Unit := do
  refuseIf (tx.type ≠ .transfer) (newError "ethereum type2 envelope only supports transfer transactions")
  refuseIf (tx.gasPrice ≠ 0 ∨ trimSpace tx.signer ≠ "" ∨ tx.authorizations ≠ [] ∨ trimSpace tx.paymaster ≠ "" ∨
      trimSpace tx.paymasterSignature ≠ "" ∨ GoMap.len tx.payload ≠ 0 ∨ tx.batch ≠ [])
    (newError "ethereum type2 transaction contains unsupported ChainLab fields")
  let calculatedHash ← ethereumType2TransactionHash tx
  refuseIf (tx.ethereumRawHash = "" ∨ tx.ethereumRawHash ≠ calculatedHash)
    (newError "ethereum raw hash does not match canonical type2 envelope")

/-- `validateDeployCodeID`. -/
def validateDeployCodeID (codeID : String) : Result Unit := do
  refuseIf (codeID = "") (newError "deploy requires code_id")
  refuseIf (codeID ≠ trimSpace codeID) (newError "deploy code_id is not canonically encoded")
  if codeID ∈ [accountCodeID, multisigCodeID, "counter.v1", "token.v1", "wasm.echo.v1"] then .ok ()
  else
    refuseIf (len codeID ≠ 71 ∨ !hasPrefix codeID "wasm:0x" ∨ codeID ≠ toLower codeID)
      (newError ("unsupported deploy code_id " ++ quote codeID))
    refuseIf (hexDecode ((runes codeID).drop 7) = none) (newError ("unsupported deploy code_id " ++ quote codeID))

/-- One round of the field loop of `validateContractPayloadBounds`, on the bytes counted so far. -/
def scanPayloadField (payload : Fields) (total : Nat) (key : String) : Result Nat := do
  let value := GoMap.get payload key
  refuseIf (len key > maxNativeArgumentKeyBytes ∨ len value > maxNativeArgumentValueBytes)
    (newError "contract payload field exceeds byte limit")
  refuseIf (total + len key > maxNativeInputBytes ∨ total + len key + len value > maxNativeInputBytes)
    (newError "contract payload exceeds total byte limit")
  return total + len key + len value

/-- `validateContractPayloadBounds`. -/
def validateContractPayloadBounds (payload : Fields) : Result Unit := do
  refuseIf (GoMap.len payload > maxNativeArgumentFields) (newError "contract payload exceeds 64 fields")
  let _ ← payload.sortedKeys.foldlM (scanPayloadField payload) 0
  refuseIf (GoMap.get payload "method" ≠ "" ∧ len (GoMap.get payload "method") > maxNativeMethodBytes)
    (newError "contract method exceeds byte limit")

/-- The checks of `validateSessionKeyMessage` on a policy to add. -/
def validateSessionKeyPolicy (payload : Fields) : Result Unit := do
  let limit ← parseOptionalLimit (GoMap.get payload "limit")
  let _ ← parseOptionalUint (GoMap.get payload "expires") "session key expires"
  let _ ← optionalCanonicalAddress (GoMap.get payload "to") "session key transfer target"
  let callTo ← optionalCanonicalAddress (GoMap.get payload "call_to") "session key call target"
  let callMethod := GoMap.get payload "call_method"
  refuseIf ((callTo = "") ≠ (callMethod = ""))
    (newError "session key call policy requires call_to and call_method")
  refuseIf (len callMethod > maxNativeMethodBytes) (newError "session key call method exceeds byte limit")
  refuseIf (limit = 0 ∧ callTo = "") (newError "session key requires transfer limit or call policy")

/-- `validateSessionKeyMessage`. -/
def validateSessionKeyMessage (tx : Transaction) : Result Unit := do
  refuseIf (tx.toAddress ≠ "" ∨ tx.value ≠ 0)
    (newError "session key transaction does not support to or value fields")
  let action := toLower (trimSpace (GoMap.get tx.payload "action"))
  let key := GoMap.get tx.payload "key"
  refuseIf (key = "") (newError "session key address is required")
  requireCanonicalAddress "session key" key
  checkWhen (action = "add") (validateSessionKeyPolicy tx.payload)
  refuseIf (action ≠ "add" ∧ action ≠ "revoke") (newError "session key action must be add or revoke")
  let allowed := ["action", "key"] ++
    (if action = "add" then ["limit", "expires", "to", "call_to", "call_method"] else [])
  refuseIf (∃ field ∈ tx.payload.keys, field ∉ allowed)
    (newError "session key payload contains unsupported fields")

/-- `validateSetCodeMessage`. -/
def validateSetCodeMessage (tx : Transaction) : Result Unit := do
  refuseIf (trimSpace tx.toAddress ≠ "" ∨ tx.value ≠ 0)
    (newError "set_code does not support to or value fields")
  refuseIf (∃ field ∈ tx.payload.keys, field ≠ "code_id" ∧ field ≠ "owner")
    (newError "set_code payload contains unsupported fields")
  let codeID := trimSpace (GoMap.get tx.payload "code_id")
  let ownerRaw := trimSpace (GoMap.get tx.payload "owner")
  if codeID = "" then
    refuseIf (ownerRaw ≠ "") (newError "set_code clear does not support owner")
  else
    refuseIf (codeID ≠ accountCodeID) (newError ("unsupported delegated code id " ++ quote codeID))
    refuseIf (ownerRaw = "") (newError "set_code account.v1 requires owner")
    let owner ← normalizeRecoveryAddress ownerRaw "set_code owner"
    refuseIf (equalFold owner tx.fromAddress) (newError "set_code owner must differ from delegated account")

/-- `validateAccountRecoveryMessage`. -/
def validateAccountRecoveryMessage (tx : Transaction) : Result Unit := do
  let action ← accountRecoveryAction tx.payload
  validateAccountRecoveryPayload action tx.payload
  if action = "configure" then
    let guardians ← parseRecoveryGuardians (GoMap.get tx.payload "guardians")
    let _ ← parseRecoveryThreshold (GoMap.get tx.payload "threshold") guardians.length
    refuseIf (trimSpace (GoMap.get tx.payload "delay") = "") (newError "recovery delay is required")
    let _ ← parseRecoveryDelay (GoMap.get tx.payload "delay")
  else if action = "approve" ∨ action = "execute" then
    let _ ← requiredRecoveryNewOwner (GoMap.get tx.payload "new_owner")
  else
    .ok ()

/-- The batch loop of `validateTransactionSchema`, for one operation. -/
def validateBatchOperation (entry : BatchOperation × Nat) : Result Unit :=
  let operation := entry.1
  let label := "batch operation " ++ itoa entry.2
  match operation.type with
  | .transfer => do
    requireCanonicalAddress (label ++ " transfer to") operation.toAddress
    refuseIf (GoMap.len operation.payload ≠ 0) (newError (label ++ " transfer does not support payload"))
  | .call => do
    (validateContractPayloadBounds operation.payload).mapError (GoError.annotate (label ++ ": "))
    requireCanonicalAddress (label ++ " call to") operation.toAddress
    refuseIf (trimSpace (GoMap.get operation.payload "method") = "") (newError (label ++ " call requires method"))
    refuseIf (operation.value ≠ 0) (newError (label ++ " call does not support value"))
  | type => .error (newError ("unsupported batch operation type " ++ quote type.name))

/-- The checks of `validateTransactionSchema` on the envelope, before the type is looked at. -/
def validateEnvelopeSchema [Primitives] (tx : Transaction) : Result Unit := do
  requireCanonicalAddress "from" tx.fromAddress
  checkWhen (tx.signer ≠ "") (requireCanonicalAddress "signer" tx.signer)
  tx.authorizations.zipIdx.forM fun entry => do
    requireCanonicalAddress ("authorization " ++ itoa entry.2 ++ " signer") entry.1.signer
    checkWhen (tx.type ≠ .accountRecovery)
      (validateCanonicalSignature ("authorization " ++ itoa entry.2 ++ " signature") entry.1.signature)
  checkWhen (tx.type ≠ .accountRecovery ∧ tx.signature ≠ "")
    (validateCanonicalSignature "transaction signature" tx.signature)
  checkWhen (tx.type ≠ .accountRecovery ∧ tx.paymasterSignature ≠ "")
    (validateCanonicalSignature "paymaster signature" tx.paymasterSignature)
  refuseIf (tx.type ≠ .accountRecovery ∧ tx.authorizations ≠ [] ∧ tx.signature ≠ "")
    (newError "multisig transaction cannot include transaction signature")
  refuseIf (tx.signatureKind ≠ "" ∧ tx.signatureKind ≠ signatureKindEthereumType2)
    (newError ("unsupported signature kind " ++ quote tx.signatureKind))
  refuseIf (tx.type ≠ .accountRecovery ∧ tx.signatureKind = "" ∧ tx.ethereumRawHash ≠ "")
    (newError "ethereum raw hash requires ethereum type2 signature kind")
  refuseIf (tx.gasPrice ≠ 0 ∧ (tx.maxFeePerGas ≠ 0 ∨ tx.maxPriorityFeePerGas ≠ 0))
    (newError "legacy gas price cannot be combined with dynamic fee fields")
  checkWhen (tx.type ≠ .accountRecovery ∧ tx.signatureKind = signatureKindEthereumType2)
    (validateEthereumType2Schema tx)
  refuseIf (tx.type ≠ .accountRecovery ∧ trimSpace tx.paymaster = "" ∧ trimSpace tx.paymasterSignature ≠ "")
    (newError "paymaster signature requires paymaster")
  checkWhen (tx.type ≠ .accountRecovery ∧ trimSpace tx.paymaster ≠ "")
    (requireCanonicalAddress "paymaster" tx.paymaster)
  refuseIf (tx.type ≠ .accountRecovery ∧ tx.batch ≠ [] ∧ tx.type ≠ .batch)
    (newError "batch operations require batch transaction type")

/-- The checks of `validateTransactionSchema` that depend on the transaction type. -/
def validateMessageSchema [Primitives] (tx : Transaction) (context : ExecutionContext) : Result Unit :=
  match tx.type with
  | .transfer => do
    requireCanonicalAddress "transfer to" tx.toAddress
    refuseIf (GoMap.len tx.payload ≠ 0) (newError "transfer does not support payload fields")
  | .batch => do
    refuseIf (trimSpace tx.toAddress ≠ "" ∨ tx.value ≠ 0 ∨ GoMap.len tx.payload ≠ 0)
      (newError "batch does not support to, value, or payload fields")
    refuseIf (tx.batch.length = 0) (newError "batch requires at least one operation")
    refuseIf (tx.batch.length > maxBatchOperations) (newError "batch exceeds 128 operations")
    tx.batch.zipIdx.forM validateBatchOperation
  | .deploy => do
    validateContractPayloadBounds tx.payload
    refuseIf (trimSpace tx.toAddress ≠ "" ∨ tx.value ≠ 0) (newError "deploy does not support to or value fields")
    validateDeployCodeID (GoMap.get tx.payload "code_id")
  | .call => do
    validateContractPayloadBounds tx.payload
    requireCanonicalAddress "call to" tx.toAddress
    refuseIf (trimSpace (GoMap.get tx.payload "method") = "") (newError "call requires to and method")
    refuseIf (tx.value ≠ 0) (newError "call does not support value")
  | .wasmUpload => do
    refuseIf (trimSpace tx.toAddress ≠ "" ∨ tx.value ≠ 0)
      (newError "wasm upload does not support to or value fields")
    let _ ← parseWASMUploadPayload tx.payload
  | .stake | .unstake => do
    refuseIf (tx.value = 0) (newError (tx.type.name ++ " value must be positive"))
    refuseIf (trimSpace tx.toAddress ≠ "" ∨ GoMap.len tx.payload ≠ 0)
      (newError (tx.type.name ++ " does not support to or payload fields"))
  | .setCode => validateSetCodeMessage tx
  | .sessionKey => validateSessionKeyMessage tx
  | .accountRecovery => validateAccountRecoveryMessage tx
  | .validatorSlash => do
    let evidence ← parseSlashPayload tx.payload
    validateSlashEvidence tx.chainID evidence
    refuseIf (trimSpace tx.toAddress ≠ "" ∨ tx.value ≠ 0)
      (newError "validator slash does not support to or value fields")
  | .vote | .proposalSubmit | .proposalExecute => .error (sentinelError .governanceDisabled)
  | .validatorJoin => do
    refuseIf (!context.validatorRuntimeAdmissions) (newError
      "dynamic validator set transactions require a certified epoch transition and are disabled")
    validateRuntimeValidatorAdmissionMessage tx
  | .validatorLeave => .error (newError
      "dynamic validator set transactions require a certified epoch transition and are disabled")
  | .unknown _ => do
    let _ ← estimateGas tx.type

/-- `validateTransactionSchema`. -/
def validateTransactionSchema [Primitives] (tx : Transaction) (context : ExecutionContext) : Result Unit := do
  validateEnvelopeSchema tx
  validateMessageSchema tx context

/-- `intrinsicGasForTransaction`. -/
def intrinsicGasForTransaction [Primitives] (tx : Transaction) (context : ExecutionContext) :
    Result UInt64 := do
  validateTransactionSchema tx context
  match tx.type with
  | .batch => estimateGasForBatch tx.batch
  | .wasmUpload =>
    let bytecode ← parseWASMUploadPayload tx.payload
    return estimateWASMUploadGas bytecode
  | .validatorJoin => estimateRuntimeValidatorAdmissionGas (GoMap.get tx.payload "certificate")
  | type => estimateGas type

end ChainLab.Core
