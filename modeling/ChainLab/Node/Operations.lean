import ChainLab.Contracts.Runtime
import ChainLab.Node.State

/-! The operations of the lab node: creation, submission, block production, block import and finality votes. -/

namespace ChainLab.Node

open ChainLab.Lib ChainLab.Types ChainLab.Crypto ChainLab.State ChainLab.Core ChainLab.Consensus

variable [Primitives] (setup : Setup) (world : World)

/-! ### Submission -/

/-- `submitTxLocked`. -/
def submitTx (tx : Transaction) : NodeAction Unit := do
  requireOpen
  requireRunning
  recordingFaults setup world do
    let n ← Action.read id
    let pool ← Action.lift (submitTransaction setup.executor (n.nextContext setup) n.state setup.blockGasLimit n.pool tx)
    Action.modify fun n => { n with pool }

/-- `SubmitTx`: a pool that cannot be persisted is taken back. -/
def submitAndPersistTx (tx : Transaction) : NodeAction Unit := do
  let previous ← Action.read LabNode.pool
  submitTx setup world tx
  (persist setup world).onError fun _ n => { n with pool := previous }

/-! ### Block production -/

/-- What the loop of `ProduceBlock` carries. -/
structure BlockDraft where
  working : Store
  included : List Transaction := []
  receipts : List Receipt := []
  remaining : List Transaction := []
  gasUsed : UInt64 := 0
  blockComponentBytes : Nat := 0
  blockFull : Bool := false

/-- The loop of `ProduceBlock` over the pending list. -/
def selectTransactions (context : ExecutionContext) : BlockDraft → List Transaction → Result BlockDraft
  | draft, [] => .ok draft
  | draft, tx :: rest =>
    if draft.blockFull = true ∨ draft.included.length ≥ maxTransactionsPerBlock then
      .ok { draft with remaining := draft.remaining ++ tx :: rest }
    else do
      let index := draft.included.length + draft.remaining.length
      let txSize ← (canonicalTransactionSize tx).mapError
        (GoError.annotate ("mempool transaction " ++ itoa index ++ ": "))
      let leave := { draft with remaining := draft.remaining ++ [tx] }
      match setup.executor.executeWithContext draft.working tx context with
      | (_, .error err) =>
        if isFatalExecutionError err then .error err else selectTransactions context leave rest
      | (candidate, .ok receipt) => do
        let nextGasUsed ← checkedAdd draft.gasUsed receipt.gasUsed
        if nextGasUsed > setup.blockGasLimit then selectTransactions context { leave with blockFull := true } rest
        else do
          let nextBlockBytes ← checkedSizeAdd draft.blockComponentBytes txSize
          let nextBlockBytes ← checkedSizeAdd nextBlockBytes (utf8Bytes receipt.json).length
          let grown := { draft with
            working := candidate, gasUsed := nextGasUsed, blockComponentBytes := nextBlockBytes
            included := draft.included ++ [tx], receipts := draft.receipts ++ [receipt] }
          if nextBlockBytes > maxUncertifiedBlockBytes - maxProducedBlockEnvelopeBytes then
            selectTransactions context { leave with blockFull := true } rest
          else selectTransactions context grown rest

/-- The time of a produced block: the clock, held within the step that validation allows. -/
def blockTime (parent : Block) (now : Int64) : Result Int64 := do
  refuseIf (parent.header.timeUnix > Int64.maxValue - maxBlockTimeStepSeconds) (newError "block time domain exhausted")
  let maxBlockTime := parent.header.timeUnix + maxBlockTimeStepSeconds / 2
  let blockTime := if now > maxBlockTime then maxBlockTime else now
  return if blockTime ≤ parent.header.timeUnix then parent.header.timeUnix + 1 else blockTime

/-- The block of a draft, not yet signed. -/
def draftBlock (n : LabNode) (timeUnix : Int64) (draft : BlockDraft) : Block where
  header := {
    chainID := setup.chainID, height := n.head.header.height + 1, parentHash := n.head.hash, timeUnix
    proposer := setup.proposer, gasLimit := setup.blockGasLimit, gasUsed := draft.gasUsed
    baseFeePerGas := nextBaseFee n.head setup.blockGasLimit, txRoot := transactionRoot draft.included
    receiptRoot := receiptRoot draft.receipts, stateRoot := draft.working.root }
  transactions := draft.included
  receipts := draft.receipts

/-- The context of the block after a given one. -/
def contextAfter (block : Block) : ExecutionContext where
  blockHeight := block.header.height + 1
  baseFeePerGas := nextBaseFee block setup.blockGasLimit

/-- The pool after a new head: what still executes stays pending, what has a later nonce is queued again, and
what has become next is promoted. -/
def poolAfter (context : ExecutionContext) (working : Store) (mempool queued : List Transaction) :
    Result (List Transaction × List Transaction) := do
  let (nextMempool, demoted) ← revalidateMempoolForState setup.executor context working mempool
  let candidateQueued ← revalidateQueuedForState setup.executor context working nextMempool (queued ++ demoted)
  promoteQueuedForState setup.executor context working nextMempool candidateQueued

namespace LabNode

variable (n : LabNode)

/-- Put a block among the known ones. -/
def addKnown (block : Block) : LabNode := { n with
  knownBlocks := n.knownBlocks.insert block.hash block
  knownBlockHeights := if block.hash ∈ n.knownBlocks then n.knownBlockHeights
    else n.knownBlockHeights.insert block.header.height
      (GoMap.get n.knownBlockHeights block.header.height + 1) }

/-- Take one from the count of known blocks at a height. -/
def releaseHeight (height : UInt64) : GoMap UInt64 Nat :=
  let remaining := GoMap.get n.knownBlockHeights height - 1
  if remaining = 0 then n.knownBlockHeights.erase height else n.knownBlockHeights.insert height remaining

/-- `setTxPoolLocked`, with the byte count of the lists. -/
def setPool (mempool queued : List Transaction) : LabNode :=
  { n with pool := { mempool, queued, txPoolBytes := transactionPoolBytes mempool queued } }

/-- A new head state and chain, with the engine that follows from it. -/
def setHead (state : Store) (blocks : List Block) : LabNode :=
  { n with state, blocks, consensus := newPOA state.validators }

end LabNode

/-- The end of `ProduceBlock`: the block becomes known, is persisted, and becomes the head. `ProduceBlock` counts the
block at its height without looking whether it was known. -/
def publishBlock (block : Block) (working : Store) (mempool queued : List Transaction) : NodeAction Unit := do
  Action.modify fun n => { n with
    knownBlocks := n.knownBlocks.insert block.hash block
    knownBlockHeights := n.knownBlockHeights.insert block.header.height
      (GoMap.get n.knownBlockHeights block.header.height + 1) }
  let n ← Action.read id
  (persistCandidate setup world working (n.blocks ++ [block]) mempool queued).onError fun _ n => { n with
    knownBlocks := n.knownBlocks.erase block.hash
    knownBlockHeights := n.releaseHeight block.header.height }
  Action.modify fun n =>
    { (n.setHead working (n.blocks ++ [block])).setPool mempool queued with index := indexBlock n.index block }

/-- `ProduceBlock`. -/
def produceBlock : NodeAction Block := do
  requireOpen
  requireRunning
  let key ← Action.lift (requireLocalSigning setup "block production")
  let n ← Action.read id
  let timeUnix ← Action.lift (blockTime n.head world.now)
  let draft ← recordingFaults setup world
    (Action.lift (selectTransactions setup (n.nextContext setup) { working := n.state } n.pool.mempool))
  let block := draftBlock setup n timeUnix draft
  let (mempool, queued) ← recordingFaults setup world
    (Action.lift (poolAfter setup (contextAfter setup block) draft.working draft.remaining n.pool.queued))
  let signature ← Action.lift (key.sign block.header.signingBytes)
  let block := { block with signature }
  Action.lift ((validateBlockSize block).mapError (GoError.annotate "produced block violates size limits: "))
  Action.lift (n.consensus.validateBlock n.head block)
  publishBlock setup world block draft.working mempool queued
  return block

/-! ### Votes and equivocation -/

/-- The slash that the node submits against an equivocating validator, not yet signed. -/
def slashTransaction (n : LabNode) (working : Store) (evidence : FinalityEquivocationEvidence) (gasLimit : UInt64) :
    Transaction where
  chainID := setup.chainID
  type := .validatorSlash
  fromAddress := toLower (trimSpace setup.proposer)
  nonce := (working.getAccount (toLower (trimSpace setup.proposer))).nonce
  gasLimit := gasLimit
  gasPrice := n.suggestedGasPrice setup
  payload := GoMap.ofList [("target", toLower (trimSpace evidence.validator)), ("height", formatUint evidence.height),
    ("first_block_hash", evidence.firstBlockHash), ("first_signature", evidence.firstSignature),
    ("second_block_hash", evidence.secondBlockHash), ("second_signature", evidence.secondSignature)]

/-- `enqueueFinalityEvidenceSlashLocked`. -/
def enqueueFinalityEvidenceSlash (evidence : FinalityEquivocationEvidence) : NodeAction Unit := do
  let key ← Action.lift (requireLocalSigning setup "automatic finality slash")
  let target := toLower (trimSpace evidence.validator)
  Action.lift (refuseIf (target = "") (newError "slash evidence validator is required"))
  let n ← Action.read id
  let working ← Action.lift (n.pendingState setup)
  Action.lift (refuseIf (working.stakeOf target = 0) (newError "slash target has no stake"))
  let gasLimit ← Action.lift (estimateGas .validatorSlash)
  let tx := slashTransaction setup n working evidence gasLimit
  let signature ← Action.lift (key.sign tx.signingBytes)
  submitTx setup world { tx with signature }

/-- The error of a validator that signed two blocks of one height. -/
def equivocationError (block : Block) (vote : FinalitySignature) (existing : FinalityVoteRecord) : GoError :=
  newError ("finality equivocation: validator " ++ vote.validator ++ " signed height " ++
    formatUint block.header.height ++ " for " ++ existing.blockHash ++ " and " ++ block.hash)

/-- The vote becomes the validator's vote of the height. -/
def indexVote (block : Block) (vote : FinalitySignature) (n : LabNode) : LabNode :=
  let heightVotes := (GoMap.get n.finalityVoteIndex block.header.height).insert vote.validator
    { blockHash := block.hash, signature := vote.signature }
  { n with finalityVoteIndex := n.finalityVoteIndex.insert block.header.height heightVotes }

/-- The branch of `recordFinalityVoteLocked` for a second block of the height: new evidence is kept, and a slash is
submitted for it. It always ends with an error. -/
def recordEquivocation (block : Block) (vote : FinalitySignature) (existing : FinalityVoteRecord) :
    NodeAction Unit := do
  let evidence : FinalityEquivocationEvidence := {
    validator := vote.validator, height := block.header.height
    firstBlockHash := existing.blockHash, firstSignature := existing.signature
    secondBlockHash := block.hash, secondSignature := vote.signature }
  let evidenceKey := finalityEvidenceKey evidence.height evidence.validator
  let n ← Action.read id
  if evidenceKey ∈ n.finalityEvidence then Action.fail (equivocationError block vote existing)
  else do
    Action.modify fun n => { n with finalityEvidence := n.finalityEvidence.insert evidenceKey evidence }
    let slash ← Action.attempt (enqueueFinalityEvidenceSlash setup world evidence)
    match slash with
    | .ok _ => Action.fail (equivocationError block vote existing)
    | .error slashErr => Action.fail (slashErr.annotate
        ((equivocationError block vote existing).text ++ "; automatic slash skipped: "))

/-- `recordFinalityVoteLocked`. -/
def recordFinalityVote (block : Block) (vote : FinalitySignature) : NodeAction Unit := do
  let n ← Action.read id
  match (GoMap.get n.finalityVoteIndex block.header.height).lookup vote.validator with
  | none => Action.modify (indexVote block vote)
  | some existing =>
    if existing.blockHash = block.hash then pure ()
    else recordEquivocation setup world block vote existing

/-- The vote joins the votes for the block. -/
def addBlockVote (blockHash : String) (vote : FinalitySignature) (n : LabNode) : LabNode :=
  let blockVotes := (GoMap.get n.finalityVotes blockHash).insert vote.validator vote
  { n with finalityVotes := n.finalityVotes.insert blockHash blockVotes }

/-- `recordAcceptedFinalityCertificateLocked`: an equivocation does not stop it, a fatal error does. -/
def recordAcceptedFinalityCertificate (block : Block) (certificate : FinalityCertificate) : NodeAction Unit := do
  Action.modify fun n =>
    { n with finalityVotes := n.finalityVotes.insert block.hash (GoMap.get n.finalityVotes block.hash) }
  certificate.signatures.items.forM fun vote => do
    let recorded ← Action.attempt (recordFinalityVote setup world block vote)
    match recorded with
    | .error err => if isFatalExecutionError err then Action.fail err else pure ()
    | .ok _ => pure ()
    Action.modify (addBlockVote block.hash vote)

/-! ### Block import -/

/-- `transactionsInBlocks`, by their hashes. -/
def transactionHashes (blocks : List Block) : Finset String :=
  (blocks.flatMap fun block => block.transactions.map Transaction.hash).toFinset

/-- `filterTransactionsByHash`. -/
def filterTransactionsByHash (txs : List Transaction) (excluded : Finset String) : List Transaction :=
  txs.filter fun tx => tx.hash ∉ excluded

/-- `orphanedCanonicalTransactions`: the transactions of the old chain after the blocks it shares with the new one. -/
def orphanedCanonicalTransactions : List Block → List Block → List Transaction
  | block :: previous, other :: next =>
    if block.hash = other.hash then orphanedCanonicalTransactions previous next
    else (block :: previous).flatMap Block.transactions
  | previous, _ => previous.flatMap Block.transactions

/-- `prepareCanonicalChainLocked`: the chain up to a block, the store after it, and the pool on that store. -/
def prepareCanonicalChain (n : LabNode) (blockHash : String) :
    Result (List Block × Store × List Transaction × List Transaction) := do
  let (chain, working) ← n.replayKnownChain setup blockHash
  let included := transactionHashes chain
  let orphaned := orphanedCanonicalTransactions n.blocks chain
  let context := contextAfter setup (chain.getLastD default)
  let (mempool, queued) ← poolAfter setup context working (filterTransactionsByHash n.pool.mempool included)
    (filterTransactionsByHash n.pool.queued included)
  let (mempool, queued) ← reinsertOrphanedTransactionsForState setup.executor context working mempool queued orphaned
    included
  return (chain, working, mempool, queued)

/-- `canonicalBlocksEqual`. -/
def canonicalBlocksEqual (left right : Block) : Bool := utf8Bytes left.json = utf8Bytes right.json

/-- `blocksEqualIgnoringFinalityCertificate`. -/
def blocksEqualIgnoringFinalityCertificate (left right : Block) : Bool :=
  canonicalBlocksEqual { left with finalityCertificate := none } { right with finalityCertificate := none }

/-- The bounds on how many blocks are known, which an uncertified new block has to meet. -/
def checkKnownBlockCounts (n : LabNode) (block : Block) : Result Unit := do
  refuseIf (GoMap.get n.knownBlockHeights block.header.height ≥ maxKnownBlocksPerHeight)
    (newError ("known block count at height " ++ formatUint block.header.height ++ " exceeds 16"))
  let canonicalCountAfter :=
    if block.header.height > n.head.header.height then (block.header.height + 1).toNat else n.blocks.length
  let knownCountAfter := GoMap.len n.knownBlocks + 1
  refuseIf (knownCountAfter > canonicalCountAfter ∧ knownCountAfter - canonicalCountAfter > maxKnownSideBlocks)
    (newError "known side block count exceeds 4096")

/-- The part of `ImportBlock` that looks at a block by itself. -/
def checkImportedBlock (block : Block) : Result Unit := do
  refuseIf (block.header.chainID ≠ setup.chainID) (newError "imported block chain id does not match node")
  (validateBlockCheapBounds block).mapError (GoError.annotate "imported block violates size limits: ")
  validateBlockSignature block
  (validateBlockSize block).mapError (GoError.annotate "imported block violates size limits: ")

/-- The part of `ImportBlock` that finds the place of a block among the known ones: its parent. -/
def locateImportedBlock (n : LabNode) (block : Block) : Result Block := do
  let parent ← require (n.knownBlocks.lookup block.header.parentHash) (newError "imported block parent is unknown")
  checkWhen (block.hash ∉ n.knownBlocks ∧ block.finalityCertificate = none) (checkKnownBlockCounts n block)
  refuseIf (block.finalityCertificate = none ∧
      !n.prospectiveBlockCompatibleWithFinalityLock block.hash block.header.height parent.hash)
    (newError "imported block conflicts with the finality lock")
  return parent

/-- The part of `ImportBlock` for a block that is known already: the block with the certificates merged, or nothing
when the known certificate has every signature of the new one. -/
def mergeKnownBlock (parent : Block) (parentState : Store) (existing block : Block) : Result (Option Block) := do
  refuseIf (!blocksEqualIgnoringFinalityCertificate existing block)
    (newError "imported finality certificate conflicts with the known block envelope")
  match existing.finalityCertificate with
  | none => return some block
  | some _ =>
    let (merged, changed) := mergeFinalityCertificates existing.finalityCertificate block.finalityCertificate
    if changed = false then return none
    else do
      let block := { block with finalityCertificate := merged }
      (validateBlockSize block).mapError (GoError.annotate "merged certified block violates size limits: ")
      (newPOA parentState.validators).validateBlock parent block
      return some block

/-- `rollbackKnownAndLock`: what `ImportBlock` had changed is set back to what it was. -/
def rollbackKnownAndLock (previous : LabNode) (block : Block) (n : LabNode) : LabNode := { n with
  knownBlocks := match previous.knownBlocks.lookup block.hash with
    | some known => n.knownBlocks.insert block.hash known
    | none => n.knownBlocks.erase block.hash
  knownBlockHeights := if block.hash ∈ previous.knownBlocks then n.knownBlockHeights
    else n.releaseHeight block.header.height
  finalityLock := previous.finalityLock
  finalityVotes := previous.finalityVotes
  finalityVoteIndex := previous.finalityVoteIndex
  finalityEvidence := previous.finalityEvidence
  pool := previous.pool }

/-- The error of a certified block beside the lock. -/
def safetyViolation (block : Block) (lock : FinalityLock) : GoError :=
  newError ("finality safety violation: certified block " ++ block.hash ++ " at height " ++
    formatUint block.header.height ++ " conflicts with locked block " ++ lock.blockHash ++ " at height " ++
    formatUint lock.height)

/-- A block that conflicts with the lock halts the node if it is certified. -/
def refuseConflict (previous : LabNode) (block : Block) : NodeAction Unit := do
  Action.modify (rollbackKnownAndLock previous block)
  if block.finalityCertificate = none then Action.fail (newError "imported block conflicts with the finality lock")
  else do
    let safetyErr := safetyViolation block previous.finalityLock
    Action.modify (setPersistentHalt setup world safetyErr)
    let n ← Action.read id
    Action.fail (n.haltErr.getD safetyErr)

/-- What an import does to the canonical chain. -/
inductive CanonicalChange where
  | reorganised (chain : List Block) (state : Store) (mempool queued : List Transaction)
  | certified (blocks : List Block)
  | unchanged

/-- The head to follow after an import, if it is another one than before. -/
def desiredHead (n : LabNode) (block : Block) (lockAdvanced : Bool) : Option String :=
  let desired :=
    if lockAdvanced = true ∧ !LabNode.canonicalBlocksContainLock n.blocks n.finalityLock then
      some (highestKnownDescendantLocked n.head n.knownBlocks world.order n.finalityLock)
    else if block.header.height > n.head.header.height then some block.hash
    else none
  desired.filter fun blockHash => blockHash ≠ "" ∧ blockHash ≠ n.head.hash

/-- The change of the canonical chain that an import calls for. -/
def canonicalChange (n : LabNode) (block : Block) (alreadyKnown lockAdvanced : Bool) : Result CanonicalChange :=
  match desiredHead world n block lockAdvanced with
  | some blockHash => do
    let (chain, working, mempool, queued) ← prepareCanonicalChain setup n blockHash
    return .reorganised chain working mempool queued
  | none =>
    if alreadyKnown = true ∧ (∃ canonical ∈ n.blocks[block.header.height.toNat]?, canonical.hash = block.hash) then
      .ok (.certified (n.blocks.set block.header.height.toNat block))
    else .ok .unchanged

/-- The candidate that is persisted. -/
def persistChange (n : LabNode) : CanonicalChange → NodeAction Unit
  | .reorganised chain state mempool queued => persistCandidate setup world state chain mempool queued
  | .certified blocks => persistCandidate setup world n.state blocks n.pool.mempool n.pool.queued
  | .unchanged => persistCandidate setup world n.state n.blocks n.pool.mempool n.pool.queued

/-- The change as it is made to the node. -/
def applyChange (n : LabNode) : CanonicalChange → LabNode
  | .reorganised chain state mempool queued =>
    { (n.setHead state chain).setPool mempool queued with index := rebuildTxIndex chain }
  | .certified blocks => { n with blocks }
  | .unchanged => n

/-- The certificate of a block that does not conflict with the lock moves the lock, and its votes are recorded. -/
def acceptCertificate (previous : LabNode) (block : Block) : NodeAction Bool :=
  match block.finalityCertificate with
  | none => pure false
  | some certificate => do
    let n ← Action.read id
    let lockAdvanced := decide (block.header.height > n.finalityLock.height)
    Action.modify fun n =>
      if lockAdvanced = true then { n with finalityLock := ⟨block.header.height, block.hash⟩ } else n
    (recordAcceptedFinalityCertificate setup world block certificate).onError fun err n =>
      recordRuntimeFault setup world err (rollbackKnownAndLock previous block n)
    return lockAdvanced

/-- The end of `ImportBlock`, from where the block is put among the known ones. -/
def installBlock (block : Block) : NodeAction Unit := do
  let previous ← Action.read id
  Action.modify fun n => n.addKnown block
  let n ← Action.read id
  if n.blockCompatibleWithFinalityLock block.hash = false then refuseConflict setup world previous block
  else do
    let lockAdvanced ← acceptCertificate setup world previous block
    let n ← Action.read id
    let change ← (Action.lift (canonicalChange setup world n block (block.hash ∈ previous.knownBlocks) lockAdvanced)).onError
      fun err n => rollbackKnownAndLock previous block (recordRuntimeFault setup world err n)
    (persistChange setup world n change).onError fun _ n => rollbackKnownAndLock previous block n
    Action.modify fun n => applyChange n change

/-- `ImportBlock`. -/
def importBlock (block : Block) : NodeAction Unit := do
  requireOpen
  requireRunning
  Action.lift (checkImportedBlock setup block)
  let n ← Action.read id
  if block.hash ∈ n.knownBlocks ∧ block.finalityCertificate = none then
    Action.lift (refuseIf (n.blockCompatibleWithFinalityLock block.hash = false)
      (newError "imported block conflicts with the finality lock"))
  else do
    let parent ← Action.lift (locateImportedBlock n block)
    let parentState ← recordingFaults setup world (Action.lift (n.replayState setup parent.hash))
    let _ ← recordingFaults setup world (Action.lift (LabNode.validateBlockOnState setup parent parentState block))
    match n.knownBlocks.lookup block.hash with
    | none => installBlock setup world block
    | some existing => do
      let merged ← Action.lift (mergeKnownBlock parent parentState existing block)
      match merged with
      | none => pure ()
      | some block => installBlock setup world block

/-! ### Finality votes -/

/-- `matchFinalityVoteLocked`: the canonical block of a vote and the validators that may vote for it. -/
def matchFinalityVote (n : LabNode) (vote : FinalitySignature) : Result (Block × List String) := do
  refuseIf (vote.chainID ≠ setup.chainID) (newError "finality vote chain id mismatch")
  refuseIf (vote.height = 0) (newError "finality vote height is not canonical")
  let block ← require n.blocks[vote.height.toNat]? (newError "finality vote height is not canonical")
  refuseIf (block.hash ≠ vote.blockHash) (newError "finality vote block hash is not canonical")
  refuseIf (!verifyFinalityVote block vote) (newError "invalid finality vote signature")
  let validators ← n.validatorsForBlock setup block
  refuseIf (!validatorSetContains validators vote.validator)
    (newError "finality vote signer is not a validator for block")
  return (block, validators)

/-- The part of `SubmitFinalityVote` that looks at a vote by itself. -/
def checkVote (vote : FinalitySignature) : Result Unit := do
  refuseIf (¬IsCanonicalAddress vote.validator) (newError "finality vote validator is not canonically encoded")
  validateCanonicalHash "finality vote block hash" vote.blockHash
  validateCanonicalSignature "finality vote signature" vote.signature

/-- The rollback of `SubmitFinalityVote`. -/
def rollbackVote (previous : LabNode) (blockHash : String) (n : LabNode) : LabNode := { n with
  finalityVotes := previous.finalityVotes
  finalityVoteIndex := previous.finalityVoteIndex
  finalityEvidence := previous.finalityEvidence
  pool := previous.pool
  finalityLock := previous.finalityLock
  knownBlocks := n.knownBlocks.insert blockHash (GoMap.get previous.knownBlocks blockHash) }

/-- `errors.Join`: what `errors.Is` finds in one of the two it finds in the joined error. -/
def joinErrors (left right : GoError) : GoError where
  sentinel := if isFatalExecutionError right then right.sentinel else left.sentinel <|> right.sentinel
  text := left.text ++ "\n" ++ right.text

/-- The votes for a block before the first one is added: those of its certificate. -/
def certificateVotes (block : Block) : Votes :=
  match block.finalityCertificate with
  | none => ∅
  | some certificate => certificate.signatures.items.foldl (fun (votes : Votes) signature =>
      let validator := toLower (trimSpace signature.validator)
      if validator ≠ "" then votes.insert validator signature else votes) ∅

/-- The vote joins the votes for its block. -/
def castVote (block : Block) (vote : FinalitySignature) (n : LabNode) : LabNode :=
  let votes := (n.finalityVotes.lookup block.hash).getD (certificateVotes block)
  { n with finalityVotes := n.finalityVotes.insert block.hash (votes.insert vote.validator vote) }

/-- The block with the certificate of its votes. -/
def certifiedBlock (block : Block) (votes : Votes) : Block := { block with
  finalityCertificate := some {
    chainID := block.header.chainID, height := block.header.height, blockHash := block.hash
    signatures := some (sortedFinalitySignatures votes) } }

/-- The checks that `SubmitFinalityVote` makes of a block that has a quorum of votes. -/
def checkCertified (n : LabNode) (certified : Block) (validators : List String) : Result Unit := do
  (validateBlockSize certified).mapError (GoError.annotate "certified block violates size limits: ")
  (newPOA validators).validateBlock (n.blocks.getD (certified.header.height - 1).toNat default) certified
  refuseIf (n.blockCompatibleWithFinalityLock certified.hash = false)
    (newError "finality safety violation: canonical certificate conflicts with the current lock")

/-- The certified block among the known ones, and the lock on it if it is above the lock. -/
def lockCertified (certified : Block) (n : LabNode) : LabNode := { n with
  knownBlocks := n.knownBlocks.insert certified.hash certified
  finalityLock := if certified.header.height > n.finalityLock.height
    then ⟨certified.header.height, certified.hash⟩ else n.finalityLock }

/-- The end of `SubmitFinalityVote` for a vote that completes a quorum. -/
def certifyBlock (block : Block) (validators : List String) : NodeAction Unit := do
  let n ← Action.read id
  let certified := certifiedBlock block (GoMap.get n.finalityVotes block.hash)
  Action.lift (checkCertified n certified validators)
  let blocks := n.blocks.set certified.header.height.toNat certified
  Action.modify (lockCertified certified)
  persistCandidate setup world n.state blocks n.pool.mempool n.pool.queued
  Action.modify fun n => { n with blocks }

/-- `SubmitFinalityVote`. -/
def submitFinalityVote (vote : FinalitySignature) : NodeAction Unit := do
  requireOpen
  requireRunning
  recordingFaults setup world do
    Action.lift (checkVote vote)
    let previous ← Action.read id
    let (block, validators) ← Action.lift (matchFinalityVote setup previous vote)
    let rollback := rollbackVote previous block.hash
    let recorded ← Action.attempt (recordFinalityVote setup world block vote)
    match recorded with
    | .error equivocationErr => do
      let persisted ← Action.attempt (persist setup world)
      match persisted with
      | .error persistErr => do
        Action.modify rollback
        Action.fail (joinErrors persistErr equivocationErr)
      | .ok _ => Action.fail equivocationErr
    | .ok _ => do
      Action.modify (castVote block vote)
      let n ← Action.read id
      let votes := GoMap.get n.finalityVotes block.hash
      if (GoMap.len votes : Int) < finalityQuorumSize validators.length then
        (persist setup world).onError fun _ => rollback
      else (certifyBlock setup world block validators).onError fun _ => rollback

/-! ### Creation -/

/-- `Config`, with the guests of the contract runtime. -/
structure Config where
  role : NodeRole
  chainID : String
  proposerKey : Option PrivateKey
  validators : List String
  genesisBalance : GoMap String UInt64
  genesisTimeUnix : Int64
  feeCollector : String
  blockGasLimit : UInt64
  persistent : Bool
  engine : Contracts.Engine

omit [Primitives] in
/-- The proposer that the role and the key of a configuration give. -/
def configuredProposer (config : Config) : Result String :=
  match config.role with
  | .validator => do
    let key ← require config.proposerKey (newError "validator role requires a proposer key")
    refuseIf (!validatorSetContains config.validators key.address)
      (newError "validator proposer key is not in the genesis validator set")
    return key.address
  | .observer => do
    refuseIf (config.proposerKey.isSome = true) (newError "observer role must not configure a proposer key")
    refuseIf (config.feeCollector ≠ "") (newError "observer role must not configure a fee collector")
    return ""

omit [Primitives] in
/-- The checks of `New` on a configuration: the proposer. -/
def checkConfig (config : Config) : Result String := do
  validateChainID config.chainID
  refuseIf (config.genesisTimeUnix ≤ 0) (newError "genesis time unix must be positive")
  refuseIf (config.genesisTimeUnix > Int64.maxValue - maxBlockTimeStepSeconds)
    (newError "genesis time unix leaves no valid block-time domain")
  refuseIf (config.validators.length = 0) (newError "explicit genesis validator set is required")
  (validateValidatorSet config.validators).mapError (GoError.annotate "invalid validator set: ")
  let proposer ← configuredProposer config
  config.genesisBalance.sortedKeys.forM fun address => refuseIf (¬IsCanonicalAddress address)
    (newError ("genesis balance address " ++ quote address ++ " is not canonically encoded"))
  refuseIf (config.feeCollector ≠ "" ∧ ¬IsCanonicalAddress config.feeCollector)
    (newError "fee collector is not canonically encoded")
  refuseIf (config.feeCollector ≠ "" ∧ config.feeCollector ≠ proposer)
    (newError "fee collector must equal the block proposer")
  return proposer

omit [Primitives] in
/-- `newGenesisStore`, which panics on a validator set that `New` has refused before. -/
def newGenesisStore (balances : GoMap String UInt64) (validators : List String) : Result Store :=
  (balances.sortedKeys.foldl (fun store address => store.setBalance address (GoMap.get balances address))
    ({} : Store)).setValidators validators

/-- The genesis block of a node. -/
def nodeGenesis (chainID : String) (store : Store) (genesisTimeUnix : Int64) (blockGasLimit : UInt64) : Block :=
  let genesis := genesisBlock chainID store.root genesisTimeUnix
  { genesis with header := { genesis.header with
      gasLimit := blockGasLimit, baseFeePerGas := initialBaseFeePerGas } }

/-- A node at its genesis block. -/
def genesisNode (setup : Setup) (store : Store) : LabNode :=
  let genesis := nodeGenesis setup.chainID store setup.genesisTimeUnix setup.blockGasLimit
  { state := store
    consensus := newPOA store.validators
    blocks := [genesis]
    knownBlocks := (∅ : GoMap String Block).insert genesis.hash genesis
    knownBlockHeights := (∅ : GoMap UInt64 Nat).insert 0 1
    finalityLock := ⟨0, genesis.hash⟩ }

/-- `New`, without a persisted chain to restore. -/
def newNode (config : Config) : Result (Setup × LabNode) := do
  let proposer ← checkConfig config
  let blockGasLimit := if config.blockGasLimit = 0 then defaultBlockGasLimit else config.blockGasLimit
  let store ← newGenesisStore config.genesisBalance config.validators
  let setup : Setup := {
    role := config.role, chainID := config.chainID, proposerKey := config.proposerKey, proposer
    runtime := Contracts.runtime config.engine, genesisState := store.snapshot, blockGasLimit
    genesisTimeUnix := config.genesisTimeUnix, persistent := config.persistent }
  match persist setup world (genesisNode setup store) with
  | (.error err, _) => .error err
  | (.ok _, n) => return (setup, n)

/-! ### Calls -/

/-- The operations that change a node. -/
inductive Call where
  | submitTx (tx : Transaction)
  | produceBlock
  | importBlock (block : Block)
  | submitFinalityVote (vote : FinalitySignature)

/-- The node after a call, whether or not it returned an error. -/
def LabNode.call (n : LabNode) : Call → LabNode
  | .submitTx tx => (submitAndPersistTx setup world tx n).2
  | .produceBlock => (produceBlock setup world n).2
  | .importBlock block => (importBlock setup world block n).2
  | .submitFinalityVote vote => (submitFinalityVote setup world vote n).2

end ChainLab.Node
