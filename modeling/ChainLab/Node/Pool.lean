import ChainLab.Core.Executor
import ChainLab.Core.FeeMarket
import ChainLab.Node.Limits
import ChainLab.Node.Replacement

/-! The transaction pool of the lab node: the pending list, which executes in its order on the head state, and the
queue of transactions with later nonces. -/

namespace ChainLab.Node

open ChainLab.Lib ChainLab.Types ChainLab.Crypto ChainLab.State ChainLab.Core

def maxTxPoolBytes : Nat := 128 * 1024 * 1024
def maxTxPoolTransactions : Nat := maxTransactionsPerBlock
def maxQueuedTransactions : Nat := 2048
def maxTransactionsPerSender : Nat := 64
def maxQueuedNonceGap : UInt64 := 64

/-- `effectiveHeaderBaseFee`. -/
def effectiveHeaderBaseFee (block : Block) : UInt64 :=
  if block.header.baseFeePerGas = 0 then initialBaseFeePerGas else block.header.baseFeePerGas

/-- `NextBaseFee`. -/
def nextBaseFee (parent : Block) (fallbackGasLimit : UInt64) : UInt64 :=
  let parentGasLimit := if parent.header.gasLimit = 0 then fallbackGasLimit else parent.header.gasLimit
  let parentGasLimit := if parentGasLimit = 0 then defaultBlockGasLimit else parentGasLimit
  Core.nextBaseFee (effectiveHeaderBaseFee parent) parent.header.gasUsed parentGasLimit

/-- `len(hash.MustCanonicalBytes(tx))`. -/
def canonicalSize (tx : Transaction) : Nat := (utf8Bytes tx.json).length

/-- The fields of the node that make up its pool. -/
structure Pool where
  mempool : List Transaction := []
  queued : List Transaction := []
  txPoolBytes : Nat := 0
  deriving DecidableEq, Inhabited

/-- `transactionPoolBytes`. -/
def transactionPoolBytes (mempool queued : List Transaction) : Nat :=
  queued.foldl (fun total tx => total + canonicalSize tx)
    (mempool.foldl (fun total tx => total + canonicalSize tx) 0)

/-- What no two transactions of the pool share: the sender and the nonce. -/
def senderNonce (tx : Transaction) : String × UInt64 := (normalizedAddress tx.fromAddress, tx.nonce)

/-- `transactionReplacementIndex`. -/
def transactionReplacementIndex (txs : List Transaction) (tx : Transaction) : Option Nat :=
  if normalizedAddress tx.fromAddress = "" then none
  else txs.findIdx? fun pending =>
    normalizedAddress pending.fromAddress = normalizedAddress tx.fromAddress ∧ pending.nonce = tx.nonce

section Execution

variable [Primitives] (e : Executor) (context : ExecutionContext)

/-- An execution whose error is returned. -/
def applyTransaction (working : Store) (tx : Transaction) : Result Store :=
  match e.executeWithContext working tx context with
  | (after, .ok _) => .ok after
  | (_, .error err) => .error err

/-- The loops that execute a list in its order and return the first error. -/
def replayTransactions (base : Store) (txs : List Transaction) : Result Store :=
  txs.foldlM (applyTransaction e context) base

/-- The first queued transaction that is next for its sender and executes, with the rest of the queue and the store
it leaves. One that cannot be executed is passed over, unless the error is fatal. -/
def findPromotable (working : Store) :
    List Transaction → Result (Option (Transaction × List Transaction × Store))
  | [] => .ok none
  | tx :: rest => do
    let others := do
      let found ← findPromotable working rest
      return found.map fun (promoted, left, candidate) => (promoted, tx :: left, candidate)
    if tx.nonce ≠ (working.getAccount tx.fromAddress).nonce then others
    else match e.executeWithContext working tx context with
      | (_, .error err) => if isFatalExecutionError err then .error err else others
      | (candidate, .ok _) => return some (tx, rest, candidate)

/-- The outer loop of `promoteQueuedForState`. Every round but the last takes a transaction from the queue, so one
round more than there are transactions is enough. -/
def promoteRounds : Nat → Store → List Transaction → List Transaction →
    Result (List Transaction × List Transaction)
  | 0, _, mempool, queued => .ok (mempool, queued)
  | rounds + 1, working, mempool, queued => do
    let current := queued.filter fun tx => ¬tx.nonce < (working.getAccount tx.fromAddress).nonce
    let kept := current.take maxQueuedTransactions
    match ← findPromotable e context working kept with
    | none => return (mempool, kept)
    | some (tx, left, candidate) => promoteRounds rounds candidate (mempool ++ [tx]) left

/-- `promoteQueuedForState`. -/
def promoteQueuedForState (base : Store) (mempool queued : List Transaction) :
    Result (List Transaction × List Transaction) := do
  let working ← replayTransactions e context base mempool
  promoteRounds e context (queued.length + 1) working mempool queued

/-! ### Revalidation on another state -/

/-- What the loop of `revalidateMempoolForState` carries. -/
structure MempoolScan where
  working : Store
  pending : List Transaction := []
  demoted : List Transaction := []

/-- One round of the loop of `revalidateMempoolForState`. -/
def revalidatePending (scan : MempoolScan) (tx : Transaction) : Result MempoolScan :=
  let nonce := (scan.working.getAccount tx.fromAddress).nonce
  if tx.nonce > nonce then .ok { scan with demoted := scan.demoted ++ [tx] }
  else if tx.nonce < nonce then .ok scan
  else match e.executeWithContext scan.working tx context with
    | (after, .error err) => if isFatalExecutionError err then .error err else .ok { scan with working := after }
    | (after, .ok _) => .ok { scan with working := after, pending := scan.pending ++ [tx] }

/-- `revalidateMempoolForState`: the transactions that stay pending, and those that go to the queue. -/
def revalidateMempoolForState (base : Store) (txs : List Transaction) :
    Result (List Transaction × List Transaction) := do
  let scan ← txs.foldlM (revalidatePending e context) { working := base }
  return (scan.pending, scan.demoted)

/-- The counters that bound a pool while it is put together. -/
structure PoolCounters where
  poolBytes : Nat := 0
  senderCounts : GoMap String Nat := ∅

def PoolCounters.add (counters : PoolCounters) (tx : Transaction) : PoolCounters where
  poolBytes := counters.poolBytes + canonicalSize tx
  senderCounts := counters.senderCounts.insert (normalizedAddress tx.fromAddress)
    (GoMap.get counters.senderCounts (normalizedAddress tx.fromAddress) + 1)

/-- What the second loop of `revalidateQueuedForState` carries. -/
structure QueueScan where
  counters : PoolCounters
  seen : Finset (String × UInt64) := ∅
  validated : List Transaction := []

/-- The store on which a queued transaction is tried: the nonces before its own count as used. -/
def queuedCheck (working : Store) (tx : Transaction) : Store :=
  if tx.nonce > (working.getAccount tx.fromAddress).nonce then working.setNonce tx.fromAddress tx.nonce else working

/-- One round of the second loop of `revalidateQueuedForState`. -/
def revalidateQueued (working : Store) (mempoolLength : Nat) (scan : QueueScan) (tx : Transaction) :
    Result QueueScan :=
  let sender := normalizedAddress tx.fromAddress
  let nonce := (working.getAccount tx.fromAddress).nonce
  if senderNonce tx ∈ scan.seen then .ok scan
  else if tx.nonce < nonce then .ok scan
  else if tx.nonce > nonce ∧ tx.nonce - nonce > maxQueuedNonceGap then .ok scan
  else if scan.validated.length ≥ maxQueuedTransactions ∨
      mempoolLength + scan.validated.length ≥ maxTxPoolTransactions ∨
      GoMap.get scan.counters.senderCounts sender ≥ maxTransactionsPerSender then .ok scan
  else if scan.counters.poolBytes ≥ maxTxPoolBytes ∨ canonicalSize tx > maxTxPoolBytes - scan.counters.poolBytes then
    .ok scan
  else match (e.executeWithContext (queuedCheck working tx) tx context).2 with
    | .error err => if isFatalExecutionError err then .error err else .ok scan
    | .ok _ => .ok { counters := scan.counters.add tx, seen := insert (senderNonce tx) scan.seen
                     validated := scan.validated ++ [tx] }

/-- `revalidateQueuedForState`. -/
def revalidateQueuedForState (base : Store) (mempool queued : List Transaction) : Result (List Transaction) := do
  let working ← replayTransactions e context base mempool
  let scan ← queued.foldlM (revalidateQueued e context working mempool.length)
    { counters := mempool.foldl PoolCounters.add {} }
  return scan.validated

/-- What the loop of `reinsertOrphanedTransactionsForState` carries. -/
structure OrphanScan where
  working : Store
  counters : PoolCounters
  seenHashes : Finset String
  seenNonces : Finset (String × UInt64)
  pending : List Transaction
  queued : List Transaction

/-- An orphaned transaction that was put back into one of the lists. -/
def OrphanScan.count (scan : OrphanScan) (tx : Transaction) : OrphanScan := { scan with
  counters := scan.counters.add tx, seenHashes := insert tx.hash scan.seenHashes
  seenNonces := insert (senderNonce tx) scan.seenNonces }

/-- One round of the loop of `reinsertOrphanedTransactionsForState`. -/
def reinsertOrphan (included : Finset String) (scan : OrphanScan) (tx : Transaction) : Result OrphanScan := do
  let sender := normalizedAddress tx.fromAddress
  if tx.hash ∈ included ∨ tx.hash ∈ scan.seenHashes ∨ senderNonce tx ∈ scan.seenNonces then return scan
  else if scan.pending.length + scan.queued.length ≥ maxTxPoolTransactions ∨
      GoMap.get scan.counters.senderCounts sender ≥ maxTransactionsPerSender then return scan
  else do
    let txSize ← canonicalTransactionSize tx
    if scan.counters.poolBytes ≥ maxTxPoolBytes ∨ txSize > maxTxPoolBytes - scan.counters.poolBytes then return scan
    else
      let nonce := (scan.working.getAccount tx.fromAddress).nonce
      if tx.nonce < nonce then return scan
      else if tx.nonce = nonce then
        match e.executeWithContext scan.working tx context with
        | (_, .error err) => if isFatalExecutionError err then .error err else return scan
        | (candidate, .ok _) =>
          return { scan with working := candidate, pending := scan.pending ++ [tx] }.count tx
      else if tx.nonce - nonce > maxQueuedNonceGap ∨ scan.queued.length ≥ maxQueuedTransactions then return scan
      else
        match (e.executeWithContext (scan.working.setNonce tx.fromAddress tx.nonce) tx context).2 with
        | .error err => if isFatalExecutionError err then .error err else return scan
        | .ok _ => return { scan with queued := scan.queued ++ [tx] }.count tx

/-- `reinsertOrphanedTransactionsForState`. -/
def reinsertOrphanedTransactionsForState (base : Store) (pending queued orphaned : List Transaction)
    (included : Finset String) : Result (List Transaction × List Transaction) := do
  let working ← replayTransactions e context base pending
  let counters : PoolCounters :=
    { poolBytes := transactionPoolBytes pending queued
      senderCounts := ((pending ++ queued).foldl PoolCounters.add {}).senderCounts }
  let scan ← orphaned.foldlM (reinsertOrphan e context included)
    { working, counters, pending, queued, seenHashes := ((pending ++ queued).map Transaction.hash).toFinset
      seenNonces := ((pending ++ queued).map senderNonce).toFinset }
  promoteQueuedForState e context base scan.pending scan.queued

/-! ### Submission -/

namespace Pool

variable (pool : Pool)

/-- `validateNewTxPoolCapacityLocked`. -/
def validateNewTxPoolCapacity (tx : Transaction) (txSize : Nat) : Result Unit := do
  refuseIf (pool.mempool.length + pool.queued.length ≥ maxTxPoolTransactions)
    (newError "transaction pool limit 4096 reached")
  refuseIf (pool.txPoolBytes ≥ maxTxPoolBytes ∨ txSize > maxTxPoolBytes - pool.txPoolBytes)
    (newError "transaction pool byte limit 134217728 reached")
  let sent := fun (existing : Transaction) =>
    decide (normalizedAddress existing.fromAddress = normalizedAddress tx.fromAddress)
  refuseIf (pool.mempool.countP sent + pool.queued.countP sent ≥ maxTransactionsPerSender)
    (newError "sender transaction limit 64 reached")

/-- `validateReplacementTxPoolBytesLocked`. -/
def validateReplacementTxPoolBytes (previous : Transaction) (replacementSize : Nat) : Result Unit := do
  refuseIf (pool.txPoolBytes < canonicalSize previous) (newError "transaction pool byte accounting underflow")
  let retainedSize := pool.txPoolBytes - canonicalSize previous
  refuseIf (retainedSize ≥ maxTxPoolBytes ∨ replacementSize > maxTxPoolBytes - retainedSize)
    (newError "transaction pool byte limit 134217728 reached")

/-- `replacementTxPoolBytesLocked`. -/
def replacementTxPoolBytes (previous : Transaction) (replacementSize : Nat) : Nat :=
  pool.txPoolBytes - canonicalSize previous + replacementSize

end Pool

/-- `validateQueuedTransactionLocked`. -/
def validateQueuedTransaction (working : Store) (tx : Transaction) : Result Unit := do
  let nonce := (working.getAccount tx.fromAddress).nonce
  refuseIf (tx.nonce ≤ nonce)
    (newError ("bad nonce: got " ++ formatUint tx.nonce ++ " want " ++ formatUint nonce))
  let _ ← applyTransaction e context (working.setNonce tx.fromAddress tx.nonce) tx
  return ()

/-- `submitQueuedReplacementLocked`; `replaceQueuedLocked` panics on an underflow of the byte count, which the
caller has ruled out. -/
def submitQueuedReplacement (state : Store) (pool : Pool) (index : Nat) (replacement : Transaction)
    (replacementSize : Nat) (working : Store) : Result Pool := do
  let previous := pool.queued.getD index default
  let txPoolBytes := pool.replacementTxPoolBytes previous replacementSize
  let nonce := (working.getAccount replacement.fromAddress).nonce
  if replacement.nonce = nonce then do
    let (mempool, queued) ← promoteQueuedForState e context state (pool.mempool ++ [replacement])
      (pool.queued.eraseIdx index)
    return { mempool, queued, txPoolBytes }
  else do
    refuseIf (replacement.nonce < nonce)
      (newError ("bad nonce: got " ++ formatUint replacement.nonce ++ " want " ++ formatUint nonce))
    validateQueuedTransaction e context working replacement
    return { pool with queued := pool.queued.set index replacement, txPoolBytes }

/-- The pending slot of a submitted transaction is taken. -/
def replacePending (state : Store) (pool : Pool) (index : Nat) (tx : Transaction) (txSize : Nat) : Result Pool := do
  let previous := pool.mempool.getD index default
  canReplacePendingTransaction previous tx
  pool.validateReplacementTxPoolBytes previous txSize
  let (mempool, queued) ← promoteQueuedForState e context state (pool.mempool.set index tx) pool.queued
  return { mempool, queued, txPoolBytes := pool.replacementTxPoolBytes previous txSize }

/-- The queued slot of a submitted transaction is taken. -/
def replaceQueued (state : Store) (pool : Pool) (index : Nat) (tx : Transaction) (txSize : Nat) : Result Pool := do
  let working ← replayTransactions e context state pool.mempool
  let previous := pool.queued.getD index default
  canReplacePendingTransaction previous tx
  pool.validateReplacementTxPoolBytes previous txSize
  submitQueuedReplacement e context state pool index tx txSize working

/-- No slot of a submitted transaction is taken: it is appended to the pending list or to the queue. -/
def addTransaction (state : Store) (pool : Pool) (tx : Transaction) (txSize : Nat) : Result Pool := do
  pool.validateNewTxPoolCapacity tx txSize
  let working ← replayTransactions e context state pool.mempool
  let nonce := (working.getAccount tx.fromAddress).nonce
  if tx.nonce > nonce then do
    refuseIf (tx.nonce - nonce > maxQueuedNonceGap) (newError "transaction nonce gap exceeds 64")
    refuseIf (pool.queued.length ≥ maxQueuedTransactions) (newError "queued transaction limit 2048 reached")
    validateQueuedTransaction e context working tx
    return { pool with queued := pool.queued ++ [tx], txPoolBytes := pool.txPoolBytes + txSize }
  else do
    let _ ← applyTransaction e context working tx
    let (mempool, queued) ← promoteQueuedForState e context state (pool.mempool ++ [tx]) pool.queued
    return { mempool, queued, txPoolBytes := pool.txPoolBytes + txSize }

/-- The body of `submitTxLocked`, on the pool. -/
def submitTransaction (state : Store) (blockGasLimit : UInt64) (pool : Pool) (tx : Transaction) : Result Pool := do
  let txSize ← canonicalTransactionSize tx
  refuseIf (tx.gasLimit > blockGasLimit)
    (newError ("transaction gas limit exceeds block gas limit " ++ formatUint blockGasLimit))
  match transactionReplacementIndex pool.mempool tx, transactionReplacementIndex pool.queued tx with
  | some index, _ => replacePending e context state pool index tx txSize
  | none, some index => replaceQueued e context state pool index tx txSize
  | none, none => addTransaction e context state pool tx txSize

end Execution

end ChainLab.Node
