import ChainLab.Contracts.Runtime
import ChainLab.Core.Executor
import ChainLab.Types.Raw

/-! Raw transactions as the application reads them, and its mempool: accepted transactions in order, with the
store they lead to. -/

namespace ChainLab.Abci

open ChainLab.Lib ChainLab.Types ChainLab.Crypto ChainLab.State ChainLab.Core

def maxMempoolBytes : UInt64 := 128 * 1024 * 1024

def codeOK : UInt32 := 0
def codeInvalidTx : UInt32 := 2
def codeMempoolFull : UInt32 := 4

/-- `proposalTxSize`. -/
def proposalTxSize (raw : List UInt8) : Int64 :=
  1 + Int64.ofNat ((Nat.size (raw.length ||| 1) + 6) / 7) + Int64.ofNat raw.length

section Mempool

variable [Primitives] [DecodesJson Transaction]

/-- `decodeTransaction`. -/
def decodeTransaction (raw : List UInt8) (chainID : String) (blockGasLimit : UInt64) : Result Transaction := do
  refuseIf (raw.length = 0) (newError "transaction is empty")
  refuseIf (raw.length > maxTransactionBytes) (newError "transaction exceeds 2097152 bytes")
  let tx ← decodeRawTransactionForChain raw chainID
  refuseIf ((utf8Bytes tx.json).length > maxTransactionBytes)
    (newError "transaction exceeds 2097152 canonical bytes")
  refuseIf (tx.gasLimit = 0 ∨ tx.gasLimit > blockGasLimit ∨ tx.gasLimit > maxInt64.toUInt64)
    (newError ("transaction gas limit must be between 1 and " ++ formatUint blockGasLimit))
  return tx

/-- `rawTransactionID`. -/
def rawTransactionID (raw : List UInt8) : String := keccakHex raw

structure MempoolEntry where
  raw : List UInt8
  tx : Transaction
  deriving DecidableEq

structure AppMempool where
  entries : List MempoolEntry := []
  ids : Finset String := ∅
  bytes : UInt64 := 0
  working : Store

/-- `newAppMempool`. -/
def newAppMempool (base : Store) : AppMempool := { working := base }

/-- The chain a mempool executes for. -/
structure ChainRules where
  chainID : String
  blockGasLimit : UInt64
  runtime : Core.Runtime

namespace AppMempool

/-- The decoding and execution of `insert`: the transaction and the store it leads to. -/
def decodeAndExecute (pool : AppMempool) (rules : ChainRules) (context : ExecutionContext) (raw : List UInt8) :
    Result (Transaction × Store) := do
  let tx ← decodeTransaction raw rules.chainID rules.blockGasLimit
  let executor : Executor := { chainID := rules.chainID, feeCollector := "", runtime := rules.runtime }
  let executed := executor.executeWithContext pool.working tx context
  let _ ← executed.2
  return (tx, executed.1)

/-- `insert`: the pool afterwards with the code returned, or the error of a transaction that is not valid. -/
def insert (pool : AppMempool) (rules : ChainRules) (context : ExecutionContext) (raw : List UInt8) :
    Result (AppMempool × UInt32) :=
  if rawTransactionID raw ∈ pool.ids then .ok (pool, codeOK)
  else if pool.entries.length ≥ maxTransactionsPerBlock then .ok (pool, codeMempoolFull)
  else if UInt64.ofNat raw.length > maxMempoolBytes - pool.bytes then .ok (pool, codeMempoolFull)
  else do
    let admitted ← pool.decodeAndExecute rules context raw
    return ({
      entries := pool.entries ++ [{ raw, tx := admitted.1 }]
      ids := Insert.insert (rawTransactionID raw) pool.ids
      bytes := pool.bytes + UInt64.ofNat raw.length
      working := admitted.2 }, codeOK)

/-- One round of `rebuild`: committed transactions and those no longer valid are left out. -/
def rebuildRound (rules : ChainRules) (context : ExecutionContext) (excluded : List String) (rebuilt : AppMempool)
    (entry : MempoolEntry) : Result AppMempool :=
  if rawTransactionID entry.raw ∈ excluded then .ok rebuilt
  else match rebuilt.insert rules context entry.raw with
    | .error err => if isFatalExecutionError err then .error err else .ok rebuilt
    | .ok (next, code) => do
      refuseIf (code ≠ codeOK) (newError ("rebuild mempool returned unexpected code " ++ itoa code.toNat))
      return next

/-- `rebuild`. -/
def rebuild (pool : AppMempool) (rules : ChainRules) (context : ExecutionContext) (base : Store)
    (included : List (List UInt8)) : Result AppMempool :=
  pool.entries.foldlM (rebuildRound rules context (included.map rawTransactionID)) (newAppMempool base)

/-- The loop of `reap`: it stops at the first entry that does not fit. -/
def reapLoop (maxBytes maxGas : UInt64) : List MempoolEntry → UInt64 → UInt64 → List (List UInt8)
  | [], _, _ => []
  | entry :: rest, usedBytes, usedGas =>
    let txBytes := (proposalTxSize entry.raw).toUInt64
    if txBytes > maxBytes - usedBytes ∨ entry.tx.gasLimit > maxGas - usedGas then []
    else entry.raw :: reapLoop maxBytes maxGas rest (usedBytes + txBytes) (usedGas + entry.tx.gasLimit)

/-- `reap`: a limit of zero stands for the largest one. -/
def reap (pool : AppMempool) (maxBytes maxGas : UInt64) : List (List UInt8) :=
  reapLoop (if maxBytes = 0 then maxUint64 else maxBytes) (if maxGas = 0 then maxUint64 else maxGas) pool.entries 0 0

end AppMempool

end Mempool

end ChainLab.Abci
