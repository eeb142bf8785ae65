import ChainLab.Types.Block

/-! Proof of authority: the validator set, round-robin proposers, block validation and finality
certificates. -/

namespace ChainLab.Consensus

open ChainLab.Lib ChainLab.Types ChainLab.Crypto

structure POA where
  validators : List String := []
  validatorSet : Finset String := ∅
  schemaErr : Option GoError := none

def maxBlockTimeStepSeconds : Int64 := 60 * 60

/-- `ValidateValidatorSet`. -/
def validateValidatorSet (validators : List String) : Result Unit := do
  refuseIf (validators = []) (newError "validator set is empty")
  refuseIf (validators.length > maxValidators) (newError "validator set exceeds 4096 entries")
  let _ ← validators.foldlM (fun (seen : Finset String) validator => do
    refuseIf (¬IsCanonicalAddress validator) (newError "validator set contains non-canonical address")
    refuseIf (validator ∈ seen) (newError "validator set contains duplicate address")
    return insert validator seen) ∅
  return ()

/-- One round of the loop of `NewPOA`: a text that is no new canonical address only leaves an error. -/
def POA.enroll (engine : POA) (validator : String) : POA :=
  if ¬IsCanonicalAddress validator then
    { engine with
      schemaErr := engine.schemaErr <|> some (newError "validator set contains non-canonical address") }
  else if validator ∈ engine.validatorSet then
    { engine with schemaErr := engine.schemaErr <|> some (newError "validator set contains duplicate address") }
  else { engine with
    validatorSet := insert validator engine.validatorSet, validators := engine.validators ++ [validator] }

/-- `NewPOA`. -/
def newPOA (validators : List String) : POA :=
  validators.foldl POA.enroll { schemaErr := match validateValidatorSet validators with
    | .error err => some err
    | .ok _ => none }

/-- `FinalityQuorumSize`. -/
def finalityQuorumSize (validatorCount : Int) : Int :=
  if validatorCount ≤ 0 then 0 else validatorCount * 2 / 3 + 1

/-- `FinalityQuorum`. -/
def POA.finalityQuorum (p : POA) : Int := finalityQuorumSize p.validators.length

/-- `expectedProposer`. -/
def POA.expectedProposer (p : POA) (height : UInt64) : Option String :=
  if height = 0 ∨ p.validators = [] then none
  else p.validators[((height - 1) % UInt64.ofNat p.validators.length).toNat]?

section Validation

variable [Primitives]

/-- The bytes that a finality vote for the block signs. -/
def voteSigningBytes (block : Block) : List UInt8 :=
  finalityVoteSigningBytes block.header.chainID block.header.height block.hash

/-- `VerifyFinalityVote`. -/
def verifyFinalityVote (block : Block) (vote : FinalitySignature) : Bool :=
  vote.chainID = block.header.chainID && vote.height = block.header.height && vote.blockHash = block.hash &&
    (validateCanonicalHash "finality vote block hash" vote.blockHash).isOk &&
    decide (IsCanonicalAddress vote.validator) &&
    (validateCanonicalSignature "finality signature" vote.signature).isOk &&
    verify vote.validator (voteSigningBytes block) vote.signature

/-- `ValidateBlockSignature`. -/
def validateBlockSignature (block : Block) : Result Unit := do
  refuseIf (¬IsCanonicalAddress block.header.proposer) (newError "block proposer is not canonically encoded")
  validateCanonicalSignature "block signature" block.signature
  refuseIf (!verify block.header.proposer block.header.signingBytes block.signature)
    (newError "invalid block signature")

/-- What the loop of `validateFinalityCertificate` carries. -/
structure CertificateScan where
  seen : Finset String := ∅
  previousValidator : String := ""

/-- One round of the loop of `validateFinalityCertificate`. -/
def POA.scanSignature (p : POA) (block : Block) (certificate : FinalityCertificate) (scan : CertificateScan)
    (signature : FinalitySignature) : Result CertificateScan := do
  refuseIf (signature.chainID ≠ certificate.chainID ∨ signature.height ≠ certificate.height ∨
    signature.blockHash ≠ certificate.blockHash) (newError "finality signature envelope mismatch")
  refuseIf (¬IsCanonicalAddress signature.validator)
    (newError "finality signature validator is not canonically encoded")
  refuseIf (signature.validator ∉ p.validatorSet) (newError "finality signature from non-validator")
  refuseIf (signature.validator ∈ scan.seen) (newError "duplicate finality signature")
  refuseIf (scan.previousValidator ≠ "" ∧ signature.validator ≤ scan.previousValidator)
    (newError "finality signatures are not strictly sorted")
  refuseIf (!verifyFinalityVote block signature) (newError "invalid finality signature")
  return { seen := insert signature.validator scan.seen, previousValidator := signature.validator }

/-- `validateFinalityCertificate`; the certificate is the block's own. -/
def POA.validateFinalityCertificate (p : POA) (block : Block) (certificate : FinalityCertificate) :
    Result Unit := do
  refuseIf (certificate.chainID ≠ block.header.chainID) (newError "finality certificate chain id mismatch")
  refuseIf (certificate.height ≠ block.header.height) (newError "finality certificate height mismatch")
  refuseIf (certificate.blockHash ≠ block.hash) (newError "finality certificate block hash mismatch")
  let scan ← certificate.signatures.items.foldlM (p.scanSignature block certificate) {}
  refuseIf (scan.seen.card * 3 ≤ p.validators.length * 2) (newError "finality certificate below quorum")

/-- One round of the receipt loop of `ValidateBlock`. -/
def scanReceipt (block : Block) (receiptGasUsed : UInt64) (entry : (Receipt × Transaction) × Nat) :
    Result UInt64 := do
  let ((receipt, tx), index) := entry
  refuseIf (receipt.baseFeePerGas ≠ block.header.baseFeePerGas)
    (newError ("receipt " ++ itoa index ++ " base fee mismatch"))
  (validateReceiptSchema receipt tx.hash).mapError (GoError.annotate ("receipt " ++ itoa index ++ ": "))
  refuseIf (maxUint64 - receiptGasUsed < receipt.gasUsed) (newError "receipt gas used overflow")
  return receiptGasUsed + receipt.gasUsed

/-- `ValidateBlock`. -/
def POA.validateBlock (p : POA) (parent block : Block) : Result Unit := do
  match p.schemaErr with
  | some err => .error err
  | none => pure ()
  let header := block.header
  refuseIf (header.chainID = "" ∨ header.chainID ≠ trimSpace header.chainID ∨
    header.chainID ≠ parent.header.chainID) (newError "block chain id mismatch or non-canonical encoding")
  refuseIf (¬IsCanonicalAddress header.proposer) (newError "block proposer is not canonically encoded")
  refuseIf (header.proposer ∉ p.validatorSet) (newError "unauthorized proposer")
  refuseIf (header.height ≠ parent.header.height + 1)
    (newError ("bad height: got " ++ formatUint header.height ++ " want " ++ formatUint (parent.header.height + 1)))
  refuseIf (header.timeUnix ≤ parent.header.timeUnix) (newError "block time must increase")
  refuseIf (parent.header.timeUnix > Int64.maxValue - maxBlockTimeStepSeconds ∨
    header.timeUnix > parent.header.timeUnix + maxBlockTimeStepSeconds)
    (newError "block time step exceeds 3600 seconds")
  let expected ← require (p.expectedProposer header.height) (newError "no validators configured")
  refuseIf (header.proposer ≠ expected)
    (newError ("unexpected proposer: got " ++ header.proposer ++ " want " ++ expected))
  refuseIf (header.parentHash ≠ parent.hash) (newError "parent hash mismatch")
  refuseIf (header.gasLimit = 0 ∨ header.gasUsed > header.gasLimit) (newError "invalid block gas fields")
  refuseIf (header.baseFeePerGas = 0) (newError "block base fee is required")
  validateCanonicalHash "transaction root" header.txRoot
  validateCanonicalHash "receipt root" header.receiptRoot
  validateCanonicalHash "state root" header.stateRoot
  validateBlockSignature block
  refuseIf (block.transactions.length ≠ block.receipts.length)
    (newError "block receipts must match transaction count")
  refuseIf (header.txRoot ≠ transactionRoot block.transactions) (newError "transaction root mismatch")
  refuseIf (header.receiptRoot ≠ receiptRoot block.receipts) (newError "receipt root mismatch")
  -- the loop indexes the transactions by the receipts, whose number is the same here
  let receiptGasUsed ← (block.receipts.zip block.transactions).zipIdx.foldlM (scanReceipt block) 0
  refuseIf (receiptGasUsed ≠ header.gasUsed) (newError "block gas used does not match receipts")
  match block.finalityCertificate with
  | some certificate => p.validateFinalityCertificate block certificate
  | none => pure ()

end Validation

end ChainLab.Consensus
