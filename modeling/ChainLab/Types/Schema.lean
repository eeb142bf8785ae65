import ChainLab.Crypto.Keys

/-! Canonical encodings of hashes and signatures, Ethereum type-2 envelopes, and the receipt schema. -/

namespace ChainLab.Types

open ChainLab.Lib ChainLab.Crypto

/-- `ValidateChainID`. -/
def validateChainID (value : String) : Result Unit := do
  refuseIf (value = "" ∨ len value > maxChainIDBytes) (newError ("chain id must contain between 1 and 128 bytes"))
  refuseIf (!(runes value).all fun c => c.isLower || c.isUpper || c.isDigit || c = '-' || c = '_' || c = '.')
    (newError "chain id contains a non-canonical character")

/-- `ValidateCanonicalHash`. -/
def validateCanonicalHash (field value : String) : Result Unit := do
  refuseIf (len value ≠ 66 ∨ !hasPrefix value "0x" ∨ value ≠ toLower value)
    (newError (field ++ " is not a canonical 32-byte hash"))
  refuseIf (hexDecode ((runes value).drop 2) = none) (newError (field ++ " is not a canonical 32-byte hash"))

/-- The big-endian value of a byte string. -/
def bytesToNat (bytes : List UInt8) : Nat := bytes.foldl (fun n b => 256 * n + b.toNat) 0

def secp256k1HalfOrder : Nat := 0x7fffffffffffffffffffffffffffffff5d576e7357a4501ddfe92f46681b20a0

/-- `ValidateCanonicalSignature`. -/
def validateCanonicalSignature (field value : String) : Result Unit := do
  refuseIf (len value ≠ 132 ∨ !hasPrefix value "0x" ∨ value ≠ toLower value)
    (newError (field ++ " is not a canonical compact signature"))
  let raw ← require (hexDecode ((runes value).drop 2)) (newError (field ++ " is not a canonical compact signature"))
  refuseIf (raw.length ≠ 65 ∨ raw.headD 0 < 27 ∨ raw.headD 0 > 30)
    (newError (field ++ " is not a canonical compact signature"))
  refuseIf (bytesToNat (raw.drop 33) > secp256k1HalfOrder) (newError (field ++ " is not low-s"))

/-! ### Ethereum type-2 envelopes -/

/-- The big-endian bytes of a number, without leading zeros. -/
def bigEndian (n : Nat) : List UInt8 := ((Nat.digits 256 n).map UInt8.ofNat).reverse

/-- `rlpEncodeLength`. -/
def rlpEncodeLength (offset : UInt8) (length : Nat) : List UInt8 :=
  if length ≤ 55 then [offset + UInt8.ofNat length]
  else (offset + 55 + UInt8.ofNat (bigEndian length).length) :: bigEndian length

/-- `rlpEncodeBytes`. -/
def rlpEncodeBytes (raw : List UInt8) : List UInt8 :=
  if raw.length = 1 ∧ raw.headD 0 < 0x80 then raw else rlpEncodeLength 0x80 raw.length ++ raw

/-- `rlpEncodeUint64`. -/
def rlpEncodeUint64 (value : UInt64) : List UInt8 := rlpEncodeBytes (bigEndian value.toNat)

/-- `rlpEncodeList`. -/
def rlpEncodeList (items : List (List UInt8)) : List UInt8 :=
  rlpEncodeLength 0xc0 (items.map List.length).sum ++ items.flatten

/-- `ethereumAddressBytes`. -/
def ethereumAddressBytes (address : String) : Result (List UInt8) := do
  let raw ← require (hexDecode (runes (trimPrefix address "0x"))) (newError "invalid ethereum address")
  refuseIf (raw.length ≠ 20) (newError "ethereum address must be 20 bytes")
  return raw

/-- `ethereumChainNumber`; a canonical `0x` chain id is its own lower-case hexadecimal rendering. -/
def ethereumChainNumber (chainID : String) : Result UInt64 :=
  let malformed := newError "ethereum type2 requires chainlab-local or canonical positive 0x chain id"
  if chainID = "chainlab-local" then .ok 31337
  else do
    refuseIf (len chainID ≤ 2 ∨ !hasPrefix chainID "0x" ∨ chainID ≠ toLower chainID) malformed
    let digits := (runes chainID).drop 2
    let values ← require (digits.mapM hexDigitValue) malformed
    let value := values.foldl (fun n d => 16 * n + d) 0
    refuseIf (value ≥ 2 ^ 64 ∨ value = 0 ∨ '0' :: 'x' :: Nat.toDigits 16 value ≠ runes chainID) malformed
    return UInt64.ofNat value

/-- `canonicalCompactSignatureBytes`. -/
def canonicalCompactSignatureBytes (signature : String) : Result (List UInt8) := do
  validateCanonicalSignature "signature" signature
  let raw ← require (hexDecode ((runes signature).drop 2)) (newError "signature is not canonically encoded")
  refuseIf (raw.headD 0 ≠ 27 ∧ raw.headD 0 ≠ 28) (newError "ethereum type2 signature recovery id must be 0 or 1")
  return raw

/-- The fields that both the payload and the envelope of a type-2 transaction start with. -/
def type2Fields (chainNumber : UInt64) (tx : Transaction) (dest : List UInt8) : List (List UInt8) :=
  [rlpEncodeUint64 chainNumber, rlpEncodeUint64 tx.nonce, rlpEncodeUint64 tx.maxPriorityFeePerGas,
    rlpEncodeUint64 tx.maxFeePerGas, rlpEncodeUint64 tx.gasLimit, rlpEncodeBytes dest,
    rlpEncodeUint64 tx.value, rlpEncodeBytes [], rlpEncodeList []]

/-- `EthereumType2SignedBytes`. -/
def ethereumType2SignedBytes (tx : Transaction) : Result (List UInt8) := do
  let dest ← ethereumAddressBytes tx.toAddress
  let chainNumber ← ethereumChainNumber tx.chainID
  let signature ← canonicalCompactSignatureBytes tx.signature
  let r := ((signature.drop 1).take 32).dropWhile (· = 0)
  let s := (signature.drop 33).dropWhile (· = 0)
  refuseIf (r = [] ∨ s = []) (newError "ethereum type2 signature values must be positive")
  return 2 :: rlpEncodeList (type2Fields chainNumber tx dest ++
    [rlpEncodeUint64 (UInt64.ofNat ((signature.headD 0).toNat - 27)), rlpEncodeBytes r, rlpEncodeBytes s])

/-- `ethereumType2SigningPayload`. -/
def ethereumType2SigningPayload (tx : Transaction) : Result (List UInt8) := do
  let dest ← ethereumAddressBytes tx.toAddress
  let chainNumber ← ethereumChainNumber tx.chainID
  return 2 :: rlpEncodeList (type2Fields chainNumber tx dest)

/-- `EthereumType2SigningDigest`. -/
def ethereumType2SigningDigest [Primitives] (tx : Transaction) : Result Digest := do
  return Primitives.keccak (← ethereumType2SigningPayload tx)

/-- `EthereumType2TransactionHash`. -/
def ethereumType2TransactionHash [Primitives] (tx : Transaction) : Result String := do
  return keccakHex (← ethereumType2SignedBytes tx)

/-- `Transaction.Hash`: a type-2 transaction is named by its envelope when it has one. -/
def Transaction.hash [Primitives] (tx : Transaction) : String :=
  if tx.signatureKind = signatureKindEthereumType2 then
    match ethereumType2TransactionHash tx with
    | .ok digest => digest
    | .error _ => keccakHex (utf8Bytes tx.json)
  else keccakHex (utf8Bytes tx.json)

/-- `WASMCodeID`. -/
def wasmCodeID [Primitives] (bytecode : List UInt8) : String := "wasm:" ++ keccakHex bytecode

/-- `FinalityEquivocationID`: the two block hashes are taken in order. -/
def finalityEquivocationID [Primitives] (chainID validator : String) (height : UInt64)
    (firstBlockHash secondBlockHash : String) : String :=
  let lower := if secondBlockHash < firstBlockHash then secondBlockHash else firstBlockHash
  let upper := if secondBlockHash < firstBlockHash then firstBlockHash else secondBlockHash
  keccakHex (utf8Bytes (jsonObject [jsonField "chain_id" (jsonString chainID),
    jsonField "validator" (jsonString validator), jsonField "height" (jsonUint height),
    jsonField "first_block_hash" (jsonString lower), jsonField "second_block_hash" (jsonString upper)]))

/-- `FinalityEquivocationOffenceID`. -/
def finalityEquivocationOffenceID [Primitives] (chainID validator : String) (height : UInt64) : String :=
  keccakHex (utf8Bytes (jsonObject [jsonField "chain_id" (jsonString chainID),
    jsonField "validator" (jsonString validator), jsonField "height" (jsonUint height)]))

/-! ### Receipts -/

/-- `validReceiptFailureCode`. -/
def validReceiptFailureCode (code : String) : Bool :=
  code = receiptFailureExecutionReverted || code = receiptFailureOutOfGas ||
    code = receiptFailureContractTrap || code = receiptFailureResourceLimit

/-- `ValidateReceiptSchema`. -/
def validateReceiptSchema (receipt : Receipt) (expectedTxHash : String) : Result Unit := do
  validateCanonicalHash "receipt transaction hash" receipt.txHash
  refuseIf (receipt.txHash ≠ expectedTxHash) (newError "receipt transaction hash mismatch")
  refuseIf (receipt.error ≠ "") (newError "receipt error text is not consensus data")
  refuseIf (receipt.success ∧ receipt.failureCode ≠ "") (newError "successful receipt cannot include failure code")
  refuseIf (!receipt.success ∧ !validReceiptFailureCode receipt.failureCode)
    (newError "failed receipt requires a recognized failure code")
  refuseIf (receipt.feePayer ≠ "" ∧ ¬IsCanonicalAddress receipt.feePayer)
    (newError "receipt fee payer is not canonically encoded")
  refuseIf (receipt.contractAddress ≠ "" ∧ ¬IsCanonicalAddress receipt.contractAddress)
    (newError "receipt contract address is not canonically encoded")
  refuseIf (receipt.gasUsed ≠ 0 ∧ receipt.baseFeePerGas > maxUint64 / receipt.gasUsed)
    (newError "receipt base fee overflow")
  refuseIf (receipt.baseFeeBurned ≠ receipt.gasUsed * receipt.baseFeePerGas)
    (newError "receipt base fee breakdown mismatch")
  refuseIf (receipt.effectiveGasPrice < receipt.baseFeePerGas)
    (newError "receipt effective gas price is below base fee")
  let priorityPerGas := receipt.effectiveGasPrice - receipt.baseFeePerGas
  refuseIf (receipt.gasUsed ≠ 0 ∧ priorityPerGas > maxUint64 / receipt.gasUsed)
    (newError "receipt priority fee overflow")
  refuseIf (receipt.priorityFeePaid ≠ receipt.gasUsed * priorityPerGas)
    (newError "receipt priority fee breakdown mismatch")
  receipt.events.forM fun event => do
    refuseIf (event.type = "") (newError "receipt event type is required")
    refuseIf ("" ∈ event.attributes) (newError "receipt event attribute key is required")

end ChainLab.Types
