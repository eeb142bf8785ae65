import ChainLab.Types.Block

/-! Size limits of the lab node: the sizes of transactions, blocks and certificates in their canonical
encodings, and the cheaper bounds that are checked first. -/

namespace ChainLab.Node

open ChainLab.Lib ChainLab.Types ChainLab.Crypto

def maxFinalityCertificateBytes : Nat := 4 * 1024 * 1024
def maxUncertifiedBlockBytes : Nat := maxBlockBytes - maxFinalityCertificateBytes
def maxFinalitySignaturesPerBlock : Nat := maxValidators

/-- `checkedSizeAdd`. -/
def checkedSizeAdd (left right : Nat) : Result Nat := do
  refuseIf (maxUint64.toNat - left < right) (newError "canonical byte size overflow")
  return left + right

/-- `addStringSizes`. -/
def addStringSizes (total : Nat) (values : List String) : Result Nat :=
  values.foldlM (fun total value => checkedSizeAdd total (len value)) total

/-- The number of a map's entries, and its keys and values. -/
def addFieldSizes (total : Nat) (fields : Fields) : Result Nat := do
  let total ← checkedSizeAdd total (GoMap.len fields)
  fields.sortedKeys.foldlM (fun total key => addStringSizes total [key, GoMap.get fields key]) total

/-- `transactionRawContentSize`. -/
def transactionRawContentSize (tx : Transaction) : Result Nat := do
  let total ← addStringSizes 0 [tx.chainID, tx.type.name, tx.fromAddress, tx.signer, tx.toAddress, tx.paymaster,
    tx.signature, tx.paymasterSignature, tx.signatureKind, tx.ethereumRawHash]
  let total ← addFieldSizes total tx.payload
  let total ← checkedSizeAdd total tx.batch.length
  let total ← tx.batch.foldlM (fun total operation => do
    let total ← addStringSizes total [operation.type.name, operation.toAddress]
    addFieldSizes total operation.payload) total
  let total ← checkedSizeAdd total tx.authorizations.length
  tx.authorizations.foldlM (fun total authorization =>
    addStringSizes total [authorization.signer, authorization.signature]) total

/-- `receiptRawContentSize`. -/
def receiptRawContentSize (receipt : Receipt) : Result Nat := do
  let total ← addStringSizes 0 [receipt.txHash, receipt.failureCode, receipt.error, receipt.feePayer, receipt.codeID,
    receipt.proposalID, receipt.contractAddress]
  let total ← checkedSizeAdd total receipt.events.length
  receipt.events.foldlM (fun total event => do
    let total ← addStringSizes total [event.type]
    addFieldSizes total event.attributes) total

/-- `canonicalTransactionSize`. -/
def canonicalTransactionSize (tx : Transaction) : Result Nat := do
  let rawSize ← transactionRawContentSize tx
  refuseIf (rawSize > maxTransactionBytes) (newError "transaction exceeds 2097152 bytes")
  let size := (utf8Bytes tx.json).length
  refuseIf (size > maxTransactionBytes) (newError "transaction exceeds 2097152 bytes")
  return size

/-- How a loop over the items of an array ends: early, when the total is over the block limit, or after the
last item. -/
inductive ArraySize where
  | exceeded (total : Nat)
  | complete (total : Nat)
  deriving DecidableEq

/-- The loops that add up the items of an array with their commas. -/
def addArraySize {α : Type} (size : Nat → α → Result Nat) : Nat → List α → Nat → Result ArraySize
  | _, [], total => .ok (.complete total)
  | index, item :: rest, total => do
    let total ← (if index > 0 then checkedSizeAdd total 1 else .ok total)
    let itemSize ← size index item
    let total ← checkedSizeAdd total itemSize
    if total > maxBlockBytes then return .exceeded total
    else addArraySize size (index + 1) rest total

/-- An array of the block, left out when it is empty, and what is added after it unless the total is over
the limit already. -/
def addArrayField {α : Type} (opening : String) (size : Nat → α → Result Nat) (items : List α) (total : Nat)
    (after : Nat → Result Nat) : Result Nat :=
  if items = [] then after total
  else do
    let total ← checkedSizeAdd total (len opening)
    match ← addArraySize size 0 items total with
    | .exceeded total => return total
    | .complete total => do
      let total ← checkedSizeAdd total 1
      after total

/-- `canonicalFinalityCertificateSize`; what precedes the signatures is the payload of a vote. -/
def canonicalFinalityCertificateSize (certificate : FinalityCertificate) : Result Nat := do
  let opening := finalityVoteSigningBytes certificate.chainID certificate.height certificate.blockHash
  refuseIf (opening.length = 0) (newError "canonical finality certificate prefix is empty")
  let total ← checkedSizeAdd (opening.length - 1) (len ",\"signatures\":")
  match certificate.signatures with
  | none => do
    let total ← checkedSizeAdd total (len "null")
    checkedSizeAdd total 1
  | some signatures => do
    let total ← checkedSizeAdd total 1
    match ← addArraySize (fun _ signature => .ok (utf8Bytes signature.json).length) 0 signatures total with
    | .exceeded total => return total
    | .complete total => do
      let total ← checkedSizeAdd total 1
      checkedSizeAdd total 1

/-- `canonicalBlockSize`. -/
def canonicalBlockSize (block : Block) : Result Nat := do
  let total ← checkedSizeAdd (len "\x7b\"header\":") (utf8Bytes block.header.json).length
  addArrayField ",\"transactions\":["
    (fun index tx => (canonicalTransactionSize tx).mapError
      (GoError.annotate ("block transaction " ++ itoa index ++ ": "))) block.transactions total fun total =>
  addArrayField ",\"receipts\":[" (fun _ receipt => .ok (utf8Bytes receipt.json).length) block.receipts total
    fun total => do
  let total ← (if block.signature ≠ "" then do
      let total ← checkedSizeAdd total (len ",\"signature\":")
      checkedSizeAdd total (utf8Bytes (jsonString block.signature)).length
    else .ok total)
  let total ← (match block.finalityCertificate with
    | some certificate => do
      let total ← checkedSizeAdd total (len ",\"finality_certificate\":")
      let certificateSize ← canonicalFinalityCertificateSize certificate
      checkedSizeAdd total certificateSize
    | none => .ok total)
  checkedSizeAdd total 1

/-- `validateBlockRawContentSize`. -/
def validateBlockRawContentSize (block : Block) : Result Unit := do
  let header := block.header
  let total ← addStringSizes 0 [header.chainID, header.parentHash, header.proposer, header.txRoot,
    header.receiptRoot, header.stateRoot]
  let total ← block.transactions.foldlM (fun total tx => do
    let txSize ← transactionRawContentSize tx
    refuseIf (txSize > maxTransactionBytes) (newError "transaction exceeds 2097152 bytes")
    let total ← checkedSizeAdd total txSize
    refuseIf (total > maxBlockBytes) (newError "block exceeds 16777216 bytes")
    return total) total
  let total ← block.receipts.foldlM (fun total receipt => do
    let receiptSize ← receiptRawContentSize receipt
    let total ← checkedSizeAdd total receiptSize
    refuseIf (total > maxBlockBytes) (newError "block exceeds 16777216 bytes")
    return total) total
  let total ← addStringSizes total [block.signature]
  let total ← (match block.finalityCertificate with
    | none => .ok total
    | some certificate => do
      let total ← addStringSizes total [certificate.chainID, certificate.blockHash]
      let total ← checkedSizeAdd total certificate.signatures.items.length
      certificate.signatures.items.foldlM (fun total signature =>
        addStringSizes total [signature.chainID, signature.blockHash, signature.validator, signature.signature]) total)
  refuseIf (total > maxBlockBytes) (newError "block exceeds 16777216 bytes")

/-- `validateBlockCheapBounds`. -/
def validateBlockCheapBounds (block : Block) : Result Unit := do
  refuseIf (block.transactions.length > maxTransactionsPerBlock) (newError "block transaction count exceeds 4096")
  refuseIf (block.receipts.length > maxTransactionsPerBlock) (newError "block receipt count exceeds 4096")
  refuseIf (block.receipts.length ≠ block.transactions.length)
    (newError "block receipts must match transaction count")
  refuseIf (∃ certificate ∈ block.finalityCertificate,
    certificate.signatures.items.length > maxFinalitySignaturesPerBlock)
    (newError "block finality signature count exceeds 4096")
  validateBlockRawContentSize block

/-- `validateBlockSize`. -/
def validateBlockSize (block : Block) : Result Unit := do
  validateBlockCheapBounds block
  let baseSize ← canonicalBlockSize { block with finalityCertificate := none }
  refuseIf (baseSize > maxUncertifiedBlockBytes)
    (newError "block without finality certificate exceeds reserved base limit 12582912")
  match block.finalityCertificate with
  | none => pure ()
  | some certificate => do
    let certificateSize ← canonicalFinalityCertificateSize certificate
    refuseIf (certificateSize > maxFinalityCertificateBytes)
      (newError "finality certificate exceeds 4194304 bytes")
  let size ← canonicalBlockSize block
  refuseIf (size > maxBlockBytes) (newError "block exceeds 16777216 bytes")

end ChainLab.Node
