import ChainLab.Core.Authorization

/-! Transaction execution: the fee is taken into escrow on one copy of the store, the message runs on a
second copy, and one of the two replaces the store. -/

namespace ChainLab.Core

open ChainLab.Lib ChainLab.Types ChainLab.Crypto ChainLab.State ChainLab.Contracts

/-- The contract runtime as the executor sees it. Deploy and call report the gas they used whether or
not they succeed; a store is only returned by a success, since the caller drops it otherwise. -/
structure Runtime where
  deployMeteredInTransaction : Store → (creator codeID seed : String) → Fields → UInt64 →
    UInt64 × Result (Store × String × List Event)
  callMeteredInTransaction : Store → (address caller method : String) → Fields → UInt64 →
    UInt64 × Result (Store × List Event)
  validateAndCacheWasmCode : List UInt8 → Result Unit

structure Executor where
  chainID : String
  feeCollector : String
  runtime : Runtime

/-- `isActiveValidator`. -/
def isActiveValidator (store : Store) (address : String) : Bool :=
  store.validators.contains (toLower (trimSpace address))

/-- `tagBatchEvents`. -/
def tagBatchEvents (events : List Event) (index : Nat) : List Event :=
  events.map fun event => { event with attributes := event.attributes.insert "op_index" (itoa index) }

/-- `executeBatchOperation`, with the gas its contract call used. -/
def executeBatchOperation (runtime : Runtime) (store : Store) (tx : Transaction)
    (operation : BatchOperation) (index : Nat) (gasLimit : UInt64) : UInt64 × Result (Store × List Event) :=
  match operation.type with
  | .transfer => (0, do
    let store ← store.transfer tx.fromAddress operation.toAddress operation.value
    return (store, [{ type := "transfer", attributes := GoMap.ofList [("from", tx.fromAddress),
      ("to", operation.toAddress), ("op_index", itoa index)] }]))
  | .call =>
    let called := runtime.callMeteredInTransaction store operation.toAddress tx.fromAddress
      (GoMap.get operation.payload "method") operation.payload gasLimit
    (called.1, do
      let done ← called.2
      return (done.1, tagBatchEvents done.2 index))
  | type => (0, .error (newError ("unsupported batch operation type " ++ quote type.name)))

/-- Add the gas of a contract invocation; an overflow is a consensus fault. -/
def accountGas (label : String) (gasUsed resourceGas : UInt64) : Result UInt64 :=
  (checkedAdd gasUsed resourceGas).mapError fun err =>
    wrapError .consensusExecutionFault (label ++ " gas accounting: " ++ err.text)

/-- The gas of an invocation is accounted for before its outcome is looked at. -/
def chargeGas {α : Type} (label : String) (gasUsed : UInt64) (ran : UInt64 × Result α) : UInt64 × Result α :=
  let accounted := accountGas label gasUsed ran.1
  (accounted.toOption.getD 0, accounted >>= fun _ => ran.2)

/-- An invocation that failed ends the loop it is part of; otherwise the rest runs on its store. -/
def continueBatch (rest : Store → UInt64 → List Event → UInt64 × Result (Store × List Event))
    (events : List Event) : UInt64 × Result (Store × List Event) → UInt64 × Result (Store × List Event)
  | (gasUsed, .error err) => (gasUsed, .error err)
  | (gasUsed, .ok (store, new)) => rest store gasUsed (events ++ new)

/-- The batch loop: the gas used when it stops, and the store and events if every operation ran. -/
def executeBatch (runtime : Runtime) (tx : Transaction) :
    List (BatchOperation × Nat) → Store → UInt64 → List Event → UInt64 × Result (Store × List Event)
  | [], store, gasUsed, events => (gasUsed, .ok (store, events))
  | (operation, index) :: rest, store, gasUsed, events =>
    continueBatch (executeBatch runtime tx rest) events (chargeGas "batch" gasUsed
      (executeBatchOperation runtime store tx operation index (tx.gasLimit - gasUsed)))

/-- The transfer branch. -/
def executeTransfer (working : Store) (tx : Transaction) : Result (Store × List Event) := do
  let working ← working.transfer tx.fromAddress tx.toAddress tx.value
  let used ← applySessionKeyUsage working tx
  return (used.1, { type := "transfer", attributes := GoMap.ofList [("from", tx.fromAddress),
    ("to", tx.toAddress)] } :: used.2.toList)

/-- The stake branch. -/
def executeStake (working : Store) (tx : Transaction) : Result (Store × List Event) := do
  refuseIf (tx.value = 0) (newError "stake value must be positive")
  let working ← working.subBalance tx.fromAddress tx.value
  let working ← working.addStake tx.fromAddress tx.value
  return (working, [{ type := "stake" }])

/-- The unstake branch. -/
def executeUnstake (working : Store) (tx : Transaction) (context : ExecutionContext) :
    Result (Store × List Event) := do
  refuseIf (tx.value = 0) (newError "unstake value must be positive")
  refuseIf (∃ identity ∈ working.validatorIdentityByAccount tx.fromAddress,
      identity.unbondingHeight = 0 ∨ context.blockHeight < identity.unbondingHeight.toUInt64)
    (newError "validator stake is locked until its unbonding height")
  let working ← working.subStake tx.fromAddress tx.value
  let working ← working.addBalance tx.fromAddress tx.value
  return (working, [{ type := "unstake" }])

/-- The slash branch: the whole stake of the target is destroyed. -/
def executeSlash [Primitives] (working : Store) (tx : Transaction) : Result (Store × List Event) := do
  let evidence ← parseSlashPayload tx.payload
  validateSlashEvidence tx.chainID evidence
  refuseIf (!isActiveValidator working tx.fromAddress) (newError "slash reporter must be an active validator")
  refuseIf (!isActiveValidator working evidence.target) (newError "slash target must be an active validator")
  let evidenceID := finalityEquivocationID tx.chainID evidence.target evidence.height
    evidence.firstBlockHash evidence.secondBlockHash
  let offenceID := finalityEquivocationOffenceID tx.chainID evidence.target evidence.height
  let consumedKey := "slash:offence:" ++ offenceID
  refuseIf (working.param consumedKey ≠ "") (newError "slash evidence has already been consumed")
  let currentStake := working.stakeOf evidence.target
  refuseIf (currentStake = 0) (newError "slash target has no stake")
  let working ← working.subStake evidence.target currentStake
  return (working.setParam consumedKey "consumed", [{ type := "validator.slashed", attributes := GoMap.ofList [
    ("reporter", tx.fromAddress), ("target", evidence.target), ("amount", formatUint currentStake),
    ("evidence", evidenceID), ("offence", offenceID), ("removed", "false")] }])

/-- `executeSetCode`. -/
def executeSetCode (store : Store) (tx : Transaction) : Result (Store × Event) := do
  refuseIf (trimSpace (store.getAccount tx.fromAddress).codeID ≠ "")
    (newError "set_code cannot target a contract account")
  let codeID := trimSpace (GoMap.get tx.payload "code_id")
  let attributes : Fields := GoMap.ofList [("account", toLower tx.fromAddress)]
  if codeID = "" then
    return (store.clearDelegation tx.fromAddress, { type := "account.delegation_cleared", attributes })
  else
    refuseIf (codeID ≠ accountCodeID) (newError ("unsupported delegated code id " ++ quote codeID))
    let ownerRaw := trimSpace (GoMap.get tx.payload "owner")
    refuseIf (ownerRaw = "") (newError "set_code account.v1 requires owner")
    let owner ← normalizeRecoveryAddress ownerRaw "set_code owner"
    refuseIf (equalFold owner tx.fromAddress) (newError "set_code owner must differ from delegated account")
    let store := (store.clearDelegation tx.fromAddress).setDelegatedCodeID tx.fromAddress codeID
    let store ← store.setStorage tx.fromAddress "owner" owner
    return (store, { type := "account.delegation_set", attributes :=
      (attributes.insert "code_id" codeID).insert "owner" owner })

/-- The upload branch. -/
def executeUpload [Primitives] (runtime : Runtime) (working : Store) (tx : Transaction) :
    Result (Store × String × List Event) := do
  let bytecode ← parseWASMUploadPayload tx.payload
  runtime.validateAndCacheWasmCode bytecode
  let codeID := wasmCodeID bytecode
  let working := working.setContractCode {
    codeID, runtime := "wasm", meteringVersion := wasmMeteringVersion, creator := toLower tx.fromAddress
    bytecode := String.ofList ('0' :: 'x' :: hexEncode bytecode) }
  return (working, codeID, [{ type := "wasm.code_uploaded", attributes := GoMap.ofList [
    ("code_id", codeID), ("creator", toLower tx.fromAddress), ("size", itoa bytecode.length)] }])

/-- The deploy branch. -/
def executeDeploy [Primitives] (runtime : Runtime) (working : Store) (tx : Transaction) (gasUsed : UInt64) :
    UInt64 × Result (Store × String × List Event) :=
  chargeGas "deploy" gasUsed (runtime.deployMeteredInTransaction working tx.fromAddress
    (GoMap.get tx.payload "code_id") tx.hash tx.payload (tx.gasLimit - gasUsed))

/-- The call branch. -/
def executeCall (runtime : Runtime) (working : Store) (tx : Transaction) (gasUsed : UInt64) :
    UInt64 × Result (Store × List Event) :=
  let called := chargeGas "call" gasUsed (runtime.callMeteredInTransaction working tx.toAddress tx.fromAddress
    (GoMap.get tx.payload "method") tx.payload (tx.gasLimit - gasUsed))
  (called.1, do
    let done ← called.2
    let used ← applySessionKeyUsage done.1 tx
    return (used.1, done.2 ++ used.2.toList))

/-- The type switch of `ExecuteWithContext`: the gas used when it is left, and the working store with
the receipt so far if no error was returned. -/
def executeMessage [Primitives] (runtime : Runtime) (working : Store) (tx : Transaction)
    (context : ExecutionContext) (gasUsed : UInt64) (receipt : Receipt) : UInt64 × Result (Store × Receipt) :=
  let plain := fun (outcome : Result (Store × List Event)) =>
    (do let done ← outcome; return (done.1, { receipt with events := done.2 }) : Result (Store × Receipt))
  let single := fun (outcome : Result (Store × Event)) =>
    (do let done ← outcome; return (done.1, { receipt with events := [done.2] }) : Result (Store × Receipt))
  match tx.type with
  | .transfer => (gasUsed, plain (executeTransfer working tx))
  | .batch =>
    let executed : Event :=
      { type := "batch.executed", attributes := GoMap.ofList [("operations", itoa tx.batch.length)] }
    let ran := executeBatch runtime tx tx.batch.zipIdx working gasUsed [executed]
    (ran.1, plain ran.2)
  | .stake => (gasUsed, plain (executeStake working tx))
  | .unstake => (gasUsed, plain (executeUnstake working tx context))
  | .proposalSubmit | .vote | .proposalExecute => (gasUsed, .error (sentinelError .governanceDisabled))
  | .validatorJoin => (gasUsed, single (executeRuntimeValidatorAdmission working tx context))
  | .validatorLeave => (gasUsed, .error (newError
      "dynamic validator leaves require a certified epoch transition and are disabled"))
  | .validatorSlash => (gasUsed, plain (executeSlash working tx))
  | .setCode => (gasUsed, single (executeSetCode working tx))
  | .sessionKey => (gasUsed, single (executeSessionKey working tx))
  | .accountRecovery => (gasUsed, single (executeAccountRecovery working tx context.blockHeight))
  | .wasmUpload => (gasUsed, do
    let done ← executeUpload runtime working tx
    return (done.1, { receipt with codeID := done.2.1, events := done.2.2 }))
  | .deploy =>
    let ran := executeDeploy runtime working tx gasUsed
    (ran.1, do
      let done ← ran.2
      return (done.1, { receipt with contractAddress := done.2.1, events := done.2.2 }))
  | .call =>
    let ran := executeCall runtime working tx gasUsed
    (ran.1, plain ran.2)
  | .unknown name => (gasUsed, .error (newError ("unsupported transaction type " ++ quote name)))

/-- `receiptFailureCode`. -/
def receiptFailureCode (err : GoError) : String :=
  match err.sentinel with
  | some .contractOutOfGas => receiptFailureOutOfGas
  | some .wasmGuestTrap => receiptFailureContractTrap
  | some .wasmResourceLimit | some .readOnlyContract | some .wasmInvalidUTF8 => receiptFailureResourceLimit
  | some .nativeResourceLimit | some .storageLimit => receiptFailureResourceLimit
  | _ => receiptFailureExecutionReverted

/-- What the checks before execution establish: the intrinsic gas, the escrowed fee and its payer, and
the store with the nonce raised and the fee taken. -/
structure Ante where
  intrinsicGas : UInt64
  feePayer : String
  maximumFee : UInt64
  ante : Store

namespace Executor

/-- The part of `ExecuteWithContext` up to the start of execution. -/
def prepare [Primitives] (e : Executor) (store : Store) (tx : Transaction) (context : ExecutionContext) :
    Result Ante := do
  refuseIf (tx.chainID ≠ e.chainID) (newError ("wrong chain id " ++ quote tx.chainID))
  let intrinsicGas ← intrinsicGasForTransaction tx context
  refuseIf (tx.gasLimit < intrinsicGas) (newError "gas limit too low")
  validateTransactionAuthorization store tx context.blockHeight
  validatePaymasterAuthorization tx
  let nonce := (store.getAccount tx.fromAddress).nonce
  refuseIf (nonce ≠ tx.nonce)
    (newError ("bad nonce: got " ++ formatUint tx.nonce ++ " want " ++ formatUint nonce))
  validateFeeCapacity e.feeCollector store tx context.baseFeePerGas
  let ante ← store.incrementNonce tx.fromAddress
  let feePayer := transactionFeePayer tx
  let maximumFee ← (maximumTransactionFee tx).mapError fun err =>
    wrapError .consensusExecutionFault ("fee escrow calculation: " ++ err.text)
  let ante ← (ante.subBalance feePayer maximumFee).mapError fun err =>
    wrapError .consensusExecutionFault ("fee escrow reservation: " ++ err.text)
  return { intrinsicGas, feePayer, maximumFee, ante }

/-- Refuse a receipt that does not fit the schema. -/
def checkReceipt [Primitives] (tx : Transaction) (fault : String) (done : Store × Receipt) :
    Result (Store × Receipt) := do
  (validateReceiptSchema done.2 tx.hash).mapError fun err => wrapError .consensusExecutionFault (fault ++ err.text)
  return done

/-- The part of `ExecuteWithContext` after the type switch, up to the check of the receipt. -/
def finishUnchecked [Primitives] (e : Executor) (tx : Transaction) (context : ExecutionContext) (feePayer : String)
    (maximumFee gasUsed : UInt64) (working : Store) (receipt : Receipt) : Result (Store × Receipt) := do
  refuseIf (tx.gasLimit < gasUsed) (sentinelError .contractOutOfGas)
  let fee ← (calculateFee tx gasUsed context.baseFeePerGas).mapError fun err =>
    wrapError .consensusExecutionFault ("fee settlement: " ++ err.text)
  let sponsored : Event := { type := "paymaster.sponsored", attributes := GoMap.ofList [
    ("user", toLower tx.fromAddress), ("paymaster", toLower tx.paymaster)] }
  let receipt :=
    if trimSpace tx.paymaster ≠ "" then
      { receipt with feePayer := tx.paymaster, events := receipt.events ++ [sponsored] }
    else if feePayer ≠ toLower (trimSpace tx.fromAddress) then { receipt with feePayer }
    else receipt
  let working ← settleFeeEscrow e.feeCollector working feePayer maximumFee fee
  return (working, { receipt with
    gasUsed, baseFeePerGas := context.baseFeePerGas, effectiveGasPrice := fee.effectiveGasPrice
    baseFeeBurned := fee.baseFeeBurned, priorityFeePaid := fee.priorityFee })

/-- The part of `ExecuteWithContext` after the type switch. -/
def finish [Primitives] (e : Executor) (tx : Transaction) (context : ExecutionContext) (feePayer : String)
    (maximumFee gasUsed : UInt64) (working : Store) (receipt : Receipt) : Result (Store × Receipt) :=
  e.finishUnchecked tx context feePayer maximumFee gasUsed working receipt >>=
    checkReceipt tx "invalid generated receipt: "

/-- The gas a failed receipt reports. -/
def failedGas (tx : Transaction) (gasUsed : UInt64) (executionErr : GoError) : UInt64 :=
  if executionErr.sentinel = some .contractOutOfGas ∨ gasUsed > tx.gasLimit then tx.gasLimit else gasUsed

/-- `commitFailedExecution` up to the check of the receipt: the fee is settled on the escrow copy, which replaces the
store. -/
def commitFailedUnchecked [Primitives] (e : Executor) (ante : Store) (tx : Transaction)
    (context : ExecutionContext) (feePayer : String) (maximumFee gasUsed : UInt64) (executionErr : GoError) :
    Result (Store × Receipt) := do
  let gasUsed := failedGas tx gasUsed executionErr
  let fee ← (calculateFee tx gasUsed context.baseFeePerGas).mapError fun err =>
    wrapError .consensusExecutionFault ("failed receipt fee settlement: " ++ err.text)
  let ante ← settleFeeEscrow e.feeCollector ante feePayer maximumFee fee
  return (ante, {
    txHash := tx.hash, success := false, failureCode := receiptFailureCode executionErr, gasUsed
    baseFeePerGas := context.baseFeePerGas, effectiveGasPrice := fee.effectiveGasPrice
    baseFeeBurned := fee.baseFeeBurned, priorityFeePaid := fee.priorityFee
    feePayer := if trimSpace tx.paymaster ≠ "" ∨ feePayer ≠ toLower (trimSpace tx.fromAddress)
      then feePayer else "" })

/-- `commitFailedExecution`. -/
def commitFailedExecution [Primitives] (e : Executor) (ante : Store) (tx : Transaction)
    (context : ExecutionContext) (feePayer : String) (maximumFee gasUsed : UInt64) (executionErr : GoError) :
    Result (Store × Receipt) :=
  e.commitFailedUnchecked ante tx context feePayer maximumFee gasUsed executionErr >>=
    checkReceipt tx "invalid generated failed receipt: "

/-- `store.ReplaceWith(replacement)` on success; an error leaves the store as it was. -/
def commit (store : Store) : Result (Store × Receipt) → Store × Result Receipt
  | .ok (replacement, receipt) => (replacement, .ok receipt)
  | .error err => (store, .error err)

/-- The deferred handler: an error that is not fatal is turned into a failed receipt. -/
def conclude (store : Store) (failed : GoError → Result (Store × Receipt)) :
    Result (Store × Receipt) → Store × Result Receipt
  | .ok done => commit store (.ok done)
  | .error err => if isFatalExecutionError err then (store, .error err) else commit store (failed err)

/-- The part of `ExecuteWithContext` from the start of execution. -/
def execute [Primitives] (e : Executor) (store : Store) (tx : Transaction) (context : ExecutionContext)
    (a : Ante) : Store × Result Receipt :=
  let ran := executeMessage e.runtime a.ante tx context a.intrinsicGas { txHash := tx.hash, success := true }
  conclude store (e.commitFailedExecution a.ante tx context a.feePayer a.maximumFee ran.1) do
    let done ← ran.2
    e.finish tx context a.feePayer a.maximumFee ran.1 done.1 done.2

/-- An error before execution leaves the store as it was. -/
def start (store : Store) (run : Ante → Store × Result Receipt) : Result Ante → Store × Result Receipt
  | .error err => (store, .error err)
  | .ok a => run a

/-- `ExecuteWithContext`: the store afterwards, and the receipt or the error. -/
def executeWithContext [Primitives] (e : Executor) (store : Store) (tx : Transaction)
    (context : ExecutionContext) : Store × Result Receipt :=
  start store (e.execute store tx context) (e.prepare store tx context)

end Executor

end ChainLab.Core
