import ChainLab.Consensus.Poa
import ChainLab.Lib.Undo
import ChainLab.Node.Certificates
import ChainLab.Node.ForkChoice
import ChainLab.Node.Index
import ChainLab.Node.Pool
import ChainLab.State.Snapshot

/-! The state of the lab node, the file it persists to, and the checks and updates its operations share. -/

namespace ChainLab.Node

open ChainLab.Lib ChainLab.Types ChainLab.Crypto ChainLab.State ChainLab.Core ChainLab.Consensus

def maxKnownBlocksPerHeight : Nat := 16
def maxKnownSideBlocks : Nat := 4096
def maxProducedBlockEnvelopeBytes : Nat := 64 * 1024
def defaultMaxPriorityFeePerGas : UInt64 := 1
def diskSnapshotVersion : UInt64 := 3

inductive NodeRole where
  | validator | observer
  deriving DecidableEq, Inhabited

/-- A private key: its address, and what `chaincrypto.Sign` makes of a message. -/
structure PrivateKey where
  address : String
  sign : List UInt8 → Result String

/-- The fields of the node that are fixed when it is created. -/
structure Setup where
  role : NodeRole
  chainID : String
  proposerKey : Option PrivateKey
  proposer : String
  runtime : Core.Runtime
  genesisState : Snapshot
  blockGasLimit : UInt64
  genesisTimeUnix : Int64
  /-- whether a data directory is configured -/
  persistent : Bool

structure FinalityVoteRecord where
  blockHash : String
  signature : String
  deriving DecidableEq, Inhabited

structure FinalityEquivocationEvidence where
  validator : String
  height : UInt64
  firstBlockHash : String
  firstSignature : String
  secondBlockHash : String
  secondSignature : String
  deriving DecidableEq, Inhabited

/-- `diskSnapshot`, without its checksum. -/
structure DiskSnapshot where
  version : UInt64
  generation : UInt64
  chainID : String
  genesisState : Snapshot
  state : Snapshot
  blocks : List Block
  knownBlocks : List Block
  finalityLock : FinalityLock
  finalityVotes : List FinalitySignature
  finalityEvidence : List FinalityEquivocationEvidence
  pending : List Transaction
  queued : List Transaction

structure LabNode where
  /-- the store at the head of the canonical chain -/
  state : Store
  consensus : POA
  blocks : List Block
  knownBlocks : GoMap String Block
  knownBlockHeights : GoMap UInt64 Nat
  finalityVotes : GoMap String Votes := ∅
  finalityVoteIndex : GoMap UInt64 (GoMap String FinalityVoteRecord) := ∅
  finalityEvidence : GoMap String FinalityEquivocationEvidence := ∅
  finalityLock : FinalityLock
  pool : Pool := {}
  index : ChainIndex := {}
  snapshotGeneration : UInt64 := 0
  haltErr : Option GoError := none
  closed : Bool := false
  /-- the contents of chain.json -/
  chainFile : Option DiskSnapshot := none

/-- How an atomic file replacement ends; an uncertain one has replaced the file, but perhaps not durably. -/
inductive WriteOutcome where
  | written
  | failed (err : GoError)
  | uncertain (err : GoError)

/-- What the operating system and the Go runtime decide during one call: the time, the order in which the map of
known blocks is visited, and how writes to the disk end. -/
structure World where
  now : Int64 := 0
  order : List String := []
  manifest : WriteOutcome := .written
  chainFile : WriteOutcome := .written
  haltMarker : Option GoError := none

abbrev NodeAction (α : Type) := Action LabNode GoError α

def Setup.executor (setup : Setup) : Executor where
  chainID := setup.chainID
  feeCollector := setup.proposer
  runtime := setup.runtime

/-! ### Reading the chain -/

namespace LabNode

variable (setup : Setup) (n : LabNode)

/-- The last canonical block. There always is one: the genesis block is never removed. -/
def head : Block := n.blocks.getLastD default

/-- The height and the base fee of the next block. -/
def nextContext : ExecutionContext where
  blockHeight := n.head.header.height + 1
  baseFeePerGas := nextBaseFee n.head setup.blockGasLimit

/-- `suggestedGasPriceLocked`. -/
def suggestedGasPrice : UInt64 :=
  match checkedAdd (nextBaseFee n.head setup.blockGasLimit) defaultMaxPriorityFeePerGas with
  | .ok gasPrice => gasPrice
  | .error _ => maxUint64

/-- `pendingStateLocked`. -/
def pendingState [Primitives] : Result Store :=
  replayTransactions setup.executor (n.nextContext setup) n.state n.pool.mempool

/-- The loop of `PendingNonce`. -/
def walkNonces (pending : Finset UInt64) (nonce : UInt64) : UInt64 :=
  if nonce ∉ pending then nonce
  else if _hlast : nonce = maxUint64 then nonce
  else walkNonces pending (nonce + 1)
termination_by 2 ^ 64 - nonce.toNat
decreasing_by
  have hbound := nonce.toNat_lt
  have hne : nonce.toNat ≠ 2 ^ 64 - 1 := fun h => _hlast (UInt64.toNat_inj.mp h)
  have hone : (1 : UInt64).toNat = 1 := rfl
  rw [toNat_add_of_fits (by omega)]
  omega

/-- `PendingNonce`. -/
def pendingNonce (address : String) : UInt64 :=
  let address := normalizedAddress address
  let sent := n.pool.mempool.filter fun tx => normalizedAddress tx.fromAddress = address
  walkNonces (sent.map Transaction.nonce).toFinset (n.state.getAccount address).nonce

section Known

variable [Primitives]

/-- `blockCompatibleWithFinalityLockLocked`. -/
def blockCompatibleWithFinalityLock (blockHash : String) : Bool :=
  match n.knownBlocks.lookup blockHash with
  | none => false
  | some block =>
    if block.header.height ≥ n.finalityLock.height then
      knownBlockDescendsFrom n.knownBlocks blockHash n.finalityLock
    else knownBlockDescendsFrom n.knownBlocks n.finalityLock.blockHash ⟨block.header.height, blockHash⟩

/-- `prospectiveBlockCompatibleWithFinalityLockLocked`. -/
def prospectiveBlockCompatibleWithFinalityLock (blockHash : String) (height : UInt64) (parentHash : String) : Bool :=
  if height = n.finalityLock.height then blockHash = n.finalityLock.blockHash
  else if height > n.finalityLock.height then
    if height = n.finalityLock.height + 1 then parentHash = n.finalityLock.blockHash
    else knownBlockDescendsFrom n.knownBlocks parentHash n.finalityLock
  else knownBlockDescendsFrom n.knownBlocks n.finalityLock.blockHash ⟨height, blockHash⟩

/-- `canonicalBlocksContainLock`. -/
def canonicalBlocksContainLock (blocks : List Block) (lock : FinalityLock) : Bool :=
  match blocks[lock.height.toNat]? with
  | some block => block.hash = lock.blockHash
  | none => false

/-- The loop of `knownChainLocked`, from a block down to the genesis block. A walk that visits more blocks than
are known is in a cycle; the code would not return from it. -/
def knownAncestors (known : GoMap String Block) : Nat → Block → List Block → Result (List Block)
  | 0, _, _ => .error (newError "known chain does not end")
  | steps + 1, block, above =>
    if block.header.height > 0 then do
      let parent ← require (known.lookup block.header.parentHash) (newError "known chain parent is missing")
      knownAncestors known steps parent (block :: above)
    else .ok (block :: above)

/-- `knownChainLocked`: the chain from the genesis block up to the block. -/
def knownChain (blockHash : String) : Result (List Block) := do
  let block ← require (n.knownBlocks.lookup blockHash) (newError "block is unknown")
  knownAncestors n.knownBlocks (GoMap.len n.knownBlocks) block []

/-- One round of the transaction loop of `validateBlockOnStateLocked`. -/
def validateTransactionOnState (executor : Executor) (block : Block)
    (scan : Store × UInt64 × List Receipt) (tx : Transaction) : Result (Store × UInt64 × List Receipt) := do
  refuseIf (tx.gasLimit > block.header.gasLimit) (newError "transaction gas limit exceeds block gas limit")
  match executor.executeWithContext scan.1 tx
    { blockHeight := block.header.height, baseFeePerGas := block.header.baseFeePerGas } with
  | (_, .error err) => .error err
  | (working, .ok receipt) => do
    let gasUsed ← checkedAdd scan.2.1 receipt.gasUsed
    return (working, gasUsed, scan.2.2 ++ [receipt])

/-- `validateBlockOnStateLocked`: the store after the block. -/
def validateBlockOnState (parent : Block) (parentState : Store) (block : Block) : Result Store := do
  (validateBlockSize block).mapError (GoError.annotate "block violates size limits: ")
  (newPOA parentState.validators).validateBlock parent block
  refuseIf (block.header.gasLimit = 0) (newError "block gas limit is required")
  refuseIf (block.header.gasLimit ≠ parent.header.gasLimit) (newError "imported block gas limit mismatch")
  refuseIf (block.header.baseFeePerGas ≠ nextBaseFee parent setup.blockGasLimit)
    (newError "imported block base fee mismatch")
  let executor : Executor :=
    { chainID := setup.chainID, feeCollector := block.header.proposer, runtime := setup.runtime }
  let (working, gasUsed, receipts) ←
    block.transactions.foldlM (validateTransactionOnState executor block) (parentState, 0, [])
  refuseIf (gasUsed ≠ block.header.gasUsed) (newError "imported block gas used mismatch")
  refuseIf (gasUsed > block.header.gasLimit) (newError "imported block gas limit exceeded")
  refuseIf (receiptRoot receipts ≠ block.header.receiptRoot) (newError "imported block receipt root mismatch")
  refuseIf (working.root ≠ block.header.stateRoot) (newError "imported block state root mismatch")
  return working

/-- The block loop of `replayKnownChainLocked`. -/
def replayBlocks (parent : Block) (working : Store) : List Block → Result Store
  | [] => .ok working
  | block :: rest => do
    let next ← validateBlockOnState setup parent working block
    replayBlocks block next rest

/-- `replayKnownChainLocked`. -/
def replayKnownChain (blockHash : String) : Result (List Block × Store) := do
  let chain ← n.knownChain blockHash
  match chain with
  | [] => .error (newError "known chain is empty")
  | first :: rest => do
    let working ← (newStoreFromSnapshot setup.genesisState).mapError (GoError.annotate "restore genesis state: ")
    refuseIf (first.header.height ≠ 0 ∨ first.header.stateRoot ≠ working.root)
      (newError "genesis state root mismatch")
    let working ← replayBlocks setup first working rest
    return (chain, working)

/-- `replayStateLocked`. -/
def replayState (blockHash : String) : Result Store := do
  let replayed ← n.replayKnownChain setup blockHash
  return replayed.2

/-- `validatorsForBlockLocked`. -/
def validatorsForBlock (block : Block) : Result (List String) :=
  if block.header.height = 0 then .ok n.state.validators
  else do
    let parentState ← n.replayState setup block.header.parentHash
    return parentState.validators

end Known

end LabNode

/-- `validatorSetContains`. -/
def validatorSetContains (validators : List String) (validator : String) : Bool :=
  validators.any fun candidate => toLower (trimSpace candidate) = toLower (trimSpace validator)

/-- `finalityEvidenceKey`. -/
def finalityEvidenceKey (height : UInt64) (validator : String) : String :=
  formatUint height ++ ":" ++ toLower (trimSpace validator)

/-! ### What is persisted -/

namespace LabNode

section Lists

variable [Primitives] (n : LabNode)

/-- `knownBlockListLocked`. -/
def knownBlockList : List Block :=
  (n.knownBlocks.sortedKeys.map (GoMap.get n.knownBlocks)).mergeSort fun left right =>
    if left.header.height ≠ right.header.height then left.header.height < right.header.height
    else left.hash ≤ right.hash

omit [Primitives] in
/-- `finalityEvidenceListLocked`. -/
def finalityEvidenceList : List FinalityEquivocationEvidence :=
  (n.finalityEvidence.sortedKeys.map (GoMap.get n.finalityEvidence)).mergeSort fun left right =>
    if left.height ≠ right.height then left.height < right.height else left.validator ≤ right.validator

omit [Primitives] in
/-- All votes, those of one block after another. -/
def allVotes : List FinalitySignature :=
  n.finalityVotes.sortedKeys.flatMap fun blockHash =>
    let votes := GoMap.get n.finalityVotes blockHash
    votes.sortedKeys.map (GoMap.get votes)

omit [Primitives] in
/-- `finalityVoteListLocked`: one vote for each height, validator and block. -/
def finalityVoteList : List FinalitySignature :=
  let unique := n.allVotes.foldl (fun (unique : GoMap String FinalitySignature) vote =>
    unique.insert (formatUint vote.height ++ ":" ++ vote.validator ++ ":" ++ vote.blockHash) vote) ∅
  (unique.sortedKeys.map (GoMap.get unique)).mergeSort fun left right =>
    if left.height ≠ right.height then left.height < right.height
    else if left.validator ≠ right.validator then left.validator < right.validator
    else left.blockHash ≤ right.blockHash

end Lists

end LabNode

/-! ### Halts and persistence -/

section Persistence

variable (setup : Setup) (world : World)

/-- `setPersistentHaltLocked`; when the halt marker cannot be written, the node remembers that too. -/
def setPersistentHalt (cause : GoError) (n : LabNode) : LabNode :=
  if n.haltErr ≠ none then n
  else
    let joined := world.haltMarker.elim cause fun err =>
      { cause with text := cause.text ++ "\npersist halt marker: " ++ err.text }
    { n with haltErr := some (if setup.persistent then joined else cause) }

/-- `recordRuntimeFaultLocked`. -/
def recordRuntimeFault (err : GoError) (n : LabNode) : LabNode :=
  if isFatalExecutionError err then setPersistentHalt setup world err n else n

/-- A step whose error is looked at by `recordRuntimeFaultLocked`. -/
def recordingFaults {α : Type} (x : NodeAction α) : NodeAction α := x.onError (recordRuntimeFault setup world)

/-- `requireOpenLocked`. -/
def requireOpen : NodeAction Unit := do
  let n ← Action.read id
  Action.lift (refuseIf (n.closed = true) (newError "node is closed"))

/-- The check of the halt error that starts every operation. -/
def requireRunning : NodeAction Unit := do
  let n ← Action.read id
  match n.haltErr with
  | none => pure ()
  | some err => Action.fail (err.annotate "node halted: ")

/-- `requireLocalSigningLocked`: the key that signs. -/
def requireLocalSigning (action : String) : Result PrivateKey := do
  refuseIf (setup.role ≠ .validator)
    (newError ("local signing is disabled for observer nodes: " ++ action))
  require setup.proposerKey (newError ("local signing is disabled for observer nodes: " ++ action))

/-- `handlePersistenceErrorLocked`. -/
def handleWrite (outcome : WriteOutcome) : NodeAction Unit :=
  match outcome with
  | .written => pure ()
  | .failed err => Action.fail err
  | .uncertain err => do
    Action.modify (setPersistentHalt setup world err)
    let n ← Action.read id
    Action.fail (n.haltErr.getD err)

variable [Primitives]

/-- What `writeDiskSnapshotLocked` encodes. -/
def diskSnapshot (n : LabNode) (state : Store) (blocks : List Block) (mempool queued : List Transaction) :
    DiskSnapshot where
  version := diskSnapshotVersion
  generation := n.snapshotGeneration + 1
  chainID := setup.chainID
  genesisState := setup.genesisState
  state := state.snapshot
  blocks := blocks
  knownBlocks := n.knownBlockList
  finalityLock := n.finalityLock
  finalityVotes := n.finalityVoteList
  finalityEvidence := n.finalityEvidenceList
  pending := mempool
  queued := queued

/-- The file that an atomic replacement leaves behind. -/
def WriteOutcome.leaves (outcome : WriteOutcome) (snapshot : DiskSnapshot) (n : LabNode) : LabNode :=
  match outcome with
  | .failed _ => n
  | .written | .uncertain _ => { n with chainFile := some snapshot }

/-- `writeDiskSnapshotLocked`. -/
def writeDiskSnapshot (state : Store) (blocks : List Block) (mempool queued : List Transaction) :
    NodeAction Unit := do
  let n ← Action.read id
  let snapshot := diskSnapshot setup n state blocks mempool queued
  Action.modify (world.chainFile.leaves snapshot)
  handleWrite setup world world.chainFile
  Action.modify fun n => { n with snapshotGeneration := snapshot.generation }

/-- `persistCandidateLocked`. -/
def persistCandidate (state : Store) (blocks : List Block) (mempool queued : List Transaction) :
    NodeAction Unit := do
  requireOpen
  if setup.persistent = false then pure ()
  else do
    let n ← Action.read id
    Action.lift (refuseIf (n.snapshotGeneration = maxUint64) (newError "persisted snapshot generation overflow"))
    Action.lift (refuseIf (blocks = []) (newError "cannot persist an empty canonical chain"))
    handleWrite setup world world.manifest
    writeDiskSnapshot setup world state blocks mempool queued

/-- `persistLocked`. -/
def persist : NodeAction Unit := do
  let n ← Action.read id
  persistCandidate setup world n.state n.blocks n.pool.mempool n.pool.queued

end Persistence

end ChainLab.Node
