import ChainLab.State.Store
import ChainLab.Types.Schema

/-! Checked gas arithmetic, fee breakdowns, and the checks that a sender can cover a transaction. -/

namespace ChainLab.Core

open ChainLab.Lib ChainLab.Types ChainLab.Crypto ChainLab.State

/-- `checkedAdd`. -/
def checkedAdd (left right : UInt64) : Result UInt64 := do
  refuseIf (maxUint64 - left < right) (newError "gas overflow")
  return left + right

/-- `checkedMul`. -/
def checkedMul (left right : UInt64) : Result UInt64 := do
  refuseIf (left ≠ 0 ∧ right > maxUint64 / left) (newError "fee overflow")
  return left * right

structure FeeBreakdown where
  effectiveGasPrice : UInt64
  baseFeeBurned : UInt64
  priorityFee : UInt64
  totalFee : UInt64

/-- `feeCaps`: the maximum fee and the maximum priority fee per unit of gas. -/
def feeCaps (tx : Transaction) : UInt64 × UInt64 :=
  if tx.maxFeePerGas = 0 ∧ tx.maxPriorityFeePerGas = 0 then (tx.gasPrice, tx.gasPrice)
  else (tx.maxFeePerGas, tx.maxPriorityFeePerGas)

/-- `CalculateFee`. -/
def calculateFee (tx : Transaction) (gasUsed baseFeePerGas : UInt64) : Result FeeBreakdown := do
  let maxFeePerGas := (feeCaps tx).1
  let maxPriorityFeePerGas := (feeCaps tx).2
  refuseIf (maxFeePerGas < baseFeePerGas) (newError "max fee per gas is below block base fee")
  refuseIf (maxPriorityFeePerGas > maxFeePerGas) (newError "max priority fee per gas exceeds max fee per gas")
  let availablePriority := maxFeePerGas - baseFeePerGas
  let priorityFeePerGas :=
    if maxPriorityFeePerGas > availablePriority then availablePriority else maxPriorityFeePerGas
  let effectiveGasPrice ← checkedAdd baseFeePerGas priorityFeePerGas
  let totalFee ← checkedMul gasUsed effectiveGasPrice
  let baseFeeBurned ← checkedMul gasUsed baseFeePerGas
  let priorityFee ← checkedMul gasUsed priorityFeePerGas
  return { effectiveGasPrice, baseFeeBurned, priorityFee, totalFee }

/-- `accountRecoveryAction`. -/
def accountRecoveryAction (payload : Fields) : Result String :=
  let action := toLower (trimSpace (GoMap.get payload "action"))
  if action ∈ ["configure", "approve", "execute", "cancel", "clear"] then .ok action
  else .error (newError "account recovery action must be configure, approve, execute, cancel, or clear")

/-- `transactionFeePayer`: the paymaster, or the guardian of a recovery step, or the sender. -/
def transactionFeePayer (tx : Transaction) : String :=
  if trimSpace tx.paymaster ≠ "" then toLower (trimSpace tx.paymaster)
  else if tx.type = .accountRecovery ∧
      (accountRecoveryAction tx.payload = .ok "approve" ∨ accountRecoveryAction tx.payload = .ok "execute") then
    toLower (trimSpace tx.signer)
  else toLower (trimSpace tx.fromAddress)

/-- `maximumTransactionFee`. -/
def maximumTransactionFee (tx : Transaction) : Result UInt64 := checkedMul tx.gasLimit (feeCaps tx).1

/-- `transactionValueExposure`. -/
def transactionValueExposure (tx : Transaction) : Result UInt64 :=
  match tx.type with
  | .transfer | .stake => .ok tx.value
  | .batch => tx.batch.foldlM (fun total operation =>
      if operation.type ≠ .transfer then .ok total
      else (checkedAdd total operation.value).mapError fun _ => newError "batch value overflow") 0
  | _ => .ok 0

/-- `transactionIncomingValue`. -/
def transactionIncomingValue (tx : Transaction) (target : String) : Result UInt64 :=
  let target := toLower (trimSpace target)
  let sender := toLower (trimSpace tx.fromAddress)
  if target = "" then .ok 0
  else match tx.type with
    | .transfer =>
      if target ≠ sender ∧ toLower (trimSpace tx.toAddress) = target then .ok tx.value else .ok 0
    | .batch =>
      if target = sender then .ok 0
      else tx.batch.foldlM (fun incoming operation =>
        if operation.type ≠ .transfer ∨ toLower (trimSpace operation.toAddress) ≠ target then .ok incoming
        else (checkedAdd incoming operation.value).mapError fun _ => newError "recipient balance overflow") 0
    | .unstake => if target = sender then .ok tx.value else .ok 0
    | _ => .ok 0

/-- `validateExecutionCreditCapacity`. -/
def validateExecutionCreditCapacity (store : Store) (tx : Transaction) (target : String)
    (additional : UInt64) : Result Unit := do
  let incoming ← transactionIncomingValue tx target
  let total ← (checkedAdd incoming additional).mapError fun _ => newError "recipient balance overflow"
  refuseIf (total > maxUint64 - (store.getAccount target).balance) (newError "recipient balance overflow")

/-- `validateFeeCapacity`. -/
def validateFeeCapacity (feeCollector : String) (store : Store) (tx : Transaction)
    (baseFeePerGas : UInt64) : Result Unit := do
  let _ ← calculateFee tx 0 baseFeePerGas
  let maximumFee ← maximumTransactionFee tx
  let feePayer := transactionFeePayer tx
  let feeBalance := (store.getAccount feePayer).balance
  refuseIf (feeBalance < maximumFee) (newError "insufficient funds")
  let valueExposure ← transactionValueExposure tx
  refuseIf (feePayer = toLower (trimSpace tx.fromAddress) ∧ valueExposure > feeBalance - maximumFee)
    (newError "insufficient funds")
  refuseIf (feePayer ≠ toLower (trimSpace tx.fromAddress) ∧
      (store.getAccount tx.fromAddress).balance < valueExposure)
    (newError "insufficient funds")
  validateExecutionCreditCapacity store tx feePayer 0
  let collector := toLower (trimSpace feeCollector)
  checkWhen (collector ≠ "" ∧ collector ≠ feePayer) do
    let maximumBreakdown ← calculateFee tx tx.gasLimit baseFeePerGas
    validateExecutionCreditCapacity store tx collector maximumBreakdown.priorityFee

/-- `settleFeeEscrow`: refund what was not used and credit the collector with the priority fee. -/
def settleFeeEscrow (feeCollector : String) (store : Store) (payer : String) (maximumFee : UInt64)
    (fee : FeeBreakdown) : Result Store := do
  refuseIf (fee.totalFee > maximumFee) (wrapError .consensusExecutionFault "actual fee exceeds escrow")
  let refunded ← (store.addBalance payer (maximumFee - fee.totalFee)).mapError fun err =>
    wrapError .consensusExecutionFault ("fee escrow refund: " ++ err.text)
  if feeCollector = "" ∨ fee.priorityFee = 0 then
    return refunded
  else
    (refunded.addBalance feeCollector fee.priorityFee).mapError fun err =>
      wrapError .consensusExecutionFault ("priority fee credit: " ++ err.text)

/-- `EstimateGas`. -/
def estimateGas (txType : TxType) : Result UInt64 :=
  match txType with
  | .transfer => .ok 21000
  | .batch => .ok 42000
  | .stake | .unstake => .ok 30000
  | .vote => .ok 25000
  | .proposalSubmit | .proposalExecute => .ok 35000
  | .validatorJoin | .validatorLeave => .ok 40000
  | .validatorSlash => .ok 45000
  | .setCode => .ok 45000
  | .sessionKey => .ok 45000
  | .accountRecovery => .ok 55000
  | .wasmUpload => .ok 120000
  | .deploy => .ok 80000
  | .call => .ok 50000
  | .unknown name => .error (newError ("unsupported transaction type " ++ quote name))

/-- `EstimateGasForBatchOperation`. -/
def estimateGasForBatchOperation (operation : BatchOperation) : Result UInt64 :=
  if operation.type = .transfer ∨ operation.type = .call then estimateGas operation.type
  else .error (newError ("unsupported batch operation type " ++ quote operation.type.name))

/-- `EstimateGasForBatch`. -/
def estimateGasForBatch (batch : List BatchOperation) : Result UInt64 := do
  refuseIf (batch.length = 0) (newError "batch requires at least one operation")
  refuseIf (batch.length > maxBatchOperations) (newError "batch exceeds 128 operations")
  let base ← estimateGas .batch
  batch.foldlM (fun total operation => do
    let operationGas ← estimateGasForBatchOperation operation
    checkedAdd total operationGas) base

/-- `EstimateWASMUploadGas`. -/
def estimateWASMUploadGas (bytecode : List UInt8) : UInt64 :=
  let base : UInt64 := 120000
  let size := UInt64.ofNat bytecode.length
  if size > (maxUint64 - base) / 4 then maxUint64 else base + size * 4

end ChainLab.Core
