import ChainLab.Types.Schema

/-! Raw transactions: canonical JSON documents and Ethereum type-2 envelopes. -/

namespace ChainLab.Types

open ChainLab.Lib ChainLab.Crypto

/-- `encoding/json`'s decoder for one target type: unknown fields and trailing values are refused. Nothing
is assumed about it here. -/
class DecodesJson (α : Type) where
  decodeJson : List UInt8 → Option α

/-- `validateRawTransaction`. -/
def validateRawTransaction (tx : Transaction) : Result Unit := do
  refuseIf (tx.chainID = "") (newError "raw transaction missing chain_id")
  refuseIf (tx.type.name = "") (newError "raw transaction missing type")
  refuseIf (trimSpace tx.fromAddress = "") (newError "raw transaction missing from")
  refuseIf (tx.gasLimit = 0) (newError "raw transaction missing gas_limit")
  refuseIf (trimSpace tx.signature = "" ∧ tx.authorizations.length = 0)
    (newError "raw transaction missing signature")
  checkWhen (tx.signature ≠ "") (validateCanonicalSignature "raw transaction signature" tx.signature)
  checkWhen (tx.paymasterSignature ≠ "")
    (validateCanonicalSignature "raw paymaster signature" tx.paymasterSignature)
  tx.authorizations.forM fun authorization => do
    refuseIf (trimSpace authorization.signer = "" ∨ trimSpace authorization.signature = "")
      (newError "raw transaction missing authorization signature")
    validateCanonicalSignature "raw authorization signature" authorization.signature

/-- `decodeChainLabRawTransactionBytes`: only the canonical encoding of a transaction is read. -/
def decodeChainLabRawTransactionBytes [DecodesJson Transaction] (encoded : List UInt8) : Result Transaction := do
  let tx ← require (DecodesJson.decodeJson encoded) (newError "invalid raw transaction json")
  validateRawTransaction tx
  refuseIf (encoded ≠ utf8Bytes tx.json) (newError "raw transaction json is not canonically encoded")
  return tx

/-! ### RLP -/

/-- `rlpItem`: a byte string or a list. -/
inductive RlpItem where
  | string (raw : List UInt8)
  | list (children : List RlpItem)

/-- `rlpPayloadLength`. -/
def rlpPayloadLength (input : List UInt8) (lengthOfLength : Nat) : Result Nat := do
  refuseIf (lengthOfLength = 0 ∨ lengthOfLength > 8 ∨ input.length < lengthOfLength)
    (newError "invalid rlp length")
  let length := bytesToNat (input.take lengthOfLength)
  refuseIf (length > 2 ^ 63 - 1) (newError "rlp payload is too large")
  return length

/-- The payload of a string or list: whether it is a list, its bytes and what follows it. -/
def rlpSplit : List UInt8 → Result (Bool × List UInt8 × List UInt8)
  | [] => .error (newError "empty rlp input")
  | leading :: input =>
    if leading < 0x80 then .ok (false, [leading], input)
    else if leading ≤ 0xb7 then do
      let length := (leading - 0x80).toNat
      refuseIf (input.length < length) (newError "short rlp string")
      return (false, input.take length, input.drop length)
    else if leading ≤ 0xbf then do
      let lengthOfLength := (leading - 0xb7).toNat
      let length ← rlpPayloadLength input lengthOfLength
      refuseIf (input.length - lengthOfLength < length) (newError "short long rlp string")
      return (false, (input.drop lengthOfLength).take length, input.drop (lengthOfLength + length))
    else if leading ≤ 0xf7 then do
      let length := (leading - 0xc0).toNat
      refuseIf (input.length < length) (newError "short rlp list")
      return (true, input.take length, input.drop length)
    else do
      let lengthOfLength := (leading - 0xf7).toNat
      let length ← rlpPayloadLength input lengthOfLength
      refuseIf (input.length - lengthOfLength < length) (newError "short long rlp list")
      return (true, (input.drop lengthOfLength).take length, input.drop (lengthOfLength + length))

/-- `rlpDecodeListPayload`; every item is shorter than the payload it is read from, so a payload's length
bounds the depth and the rounds. -/
def rlpDecodeListPayload : (rounds : Nat) → List UInt8 → Result (List RlpItem)
  | _, [] => .ok []
  | 0, _ :: _ => .error (newError "empty rlp input")
  | rounds + 1, payload => do
    let (isList, content, rest) ← rlpSplit payload
    let item ← if isList then (rlpDecodeListPayload rounds content).map RlpItem.list
      else .ok (RlpItem.string content)
    let items ← rlpDecodeListPayload rounds rest
    return item :: items

/-- `rlpDecodeItem`. -/
def rlpDecodeItem (input : List UInt8) : Result (RlpItem × List UInt8) := do
  let (isList, content, rest) ← rlpSplit input
  let item ← if isList then (rlpDecodeListPayload content.length content).map RlpItem.list
    else .ok (RlpItem.string content)
  return (item, rest)

/-- `rlpUint64`. -/
def rlpUint64 (item : RlpItem) (field : String) : Result UInt64 :=
  match item with
  | .list _ => .error (newError (field ++ " must be an rlp string"))
  | .string raw => do
    refuseIf (raw.length > 8) (newError (field ++ " does not fit uint64"))
    refuseIf (raw.length > 1 ∧ raw.headD 0 = 0) (newError (field ++ " has a leading zero"))
    return UInt64.ofNat (bytesToNat raw)

/-- `rlpAddress`. -/
def rlpAddress (item : RlpItem) : Result String :=
  match item with
  | .list _ => .error (newError "ethereum type2 destination must be an address")
  | .string raw => do
    refuseIf (raw.length = 0) (newError "ethereum type2 contract creation is not supported")
    refuseIf (raw.length ≠ 20) (newError "ethereum type2 destination must be 20 bytes")
    return String.ofList ('0' :: 'x' :: hexEncode raw)

/-! ### Type-2 envelopes -/

/-- `ethereumInternalChainID`. -/
def ethereumInternalChainID (chainNumber : UInt64) : String :=
  if chainNumber = 31337 then "chainlab-local"
  else String.ofList ('0' :: 'x' :: Nat.toDigits 16 chainNumber.toNat)

/-- A value at the end of a 32-byte field. -/
def leftPad32 (raw : List UInt8) : List UInt8 := List.replicate (32 - raw.length) 0 ++ raw

/-- `ethereumCompactSignature`. -/
def ethereumCompactSignature (yParity : UInt64) (rItem sItem : RlpItem) : Result String := do
  refuseIf (yParity > 1) (newError "ethereum type2 signature y parity must be 0 or 1")
  match rItem, sItem with
  | .string r, .string s =>
    refuseIf (r.length = 0 ∨ r.length > 32 ∨ s.length = 0 ∨ s.length > 32)
      (newError "ethereum type2 signature r and s must fit 32 bytes")
    return String.ofList ('0' :: 'x' :: hexEncode ((27 + yParity.toUInt8) :: (leftPad32 r ++ leftPad32 s)))
  | _, _ => .error (newError "ethereum type2 signature r and s must be byte strings")

/-- The chain id of an envelope: the expected one where there is one. -/
def type2ChainID (chainNumber : UInt64) (expectedChainID : String) : Result String :=
  if expectedChainID = "" then .ok (ethereumInternalChainID chainNumber)
  else do
    let expectedChainNumber ← ethereumChainNumber expectedChainID
    refuseIf (expectedChainNumber ≠ chainNumber) (newError ("ethereum type2 chain id " ++ formatUint chainNumber ++
      " does not match node chain " ++ quote expectedChainID))
    return expectedChainID

/-- The checks of `decodeEthereumType2RawTransaction` on the fields that must be empty. -/
def requireEmptyType2Fields (data accessList : RlpItem) : Result Unit := do
  match data with
  | .string [] => .ok ()
  | _ => .error (newError "ethereum type2 raw transfers require empty data")
  match accessList with
  | .list [] => .ok ()
  | _ => .error (newError "ethereum type2 raw transfers require an empty access list")

/-- The part of `decodeEthereumType2RawTransaction` that reads the twelve fields. -/
def type2Transaction (expectedChainID : String) : List RlpItem → Result Transaction
  | [chain, nonce, priority, maxFee, gas, dest, amount, data, accessList, parity, r, s] => do
    let chainNumber ← rlpUint64 chain "chain id"
    refuseIf (chainNumber = 0) (newError "ethereum type2 chain id must be positive")
    let chainID ← type2ChainID chainNumber expectedChainID
    let nonce ← rlpUint64 nonce "nonce"
    let maxPriorityFeePerGas ← rlpUint64 priority "max priority fee per gas"
    let maxFeePerGas ← rlpUint64 maxFee "max fee per gas"
    let gasLimit ← rlpUint64 gas "gas limit"
    let toAddress ← rlpAddress dest
    let value ← rlpUint64 amount "value"
    requireEmptyType2Fields data accessList
    let yParity ← rlpUint64 parity "signature y parity"
    let signature ← ethereumCompactSignature yParity r s
    return {
      chainID, type := .transfer, fromAddress := "", toAddress, nonce, value, gasLimit, maxFeePerGas
      maxPriorityFeePerGas, signature, signatureKind := signatureKindEthereumType2 }
  | _ => .error (newError "ethereum type2 transaction must contain 12 rlp fields")

/-- `decodeEthereumType2RawTransaction`: the sender is recovered from the signature, and only the
canonical envelope of the transaction is read. -/
def decodeEthereumType2RawTransaction [Primitives] (encoded : List UInt8) (expectedChainID : String) :
    Result Transaction := do
  let (item, rest) ← rlpDecodeItem (encoded.drop 1)
  refuseIf (rest ≠ []) (newError "ethereum type2 raw transaction has trailing bytes")
  let fields := match item with
    | .list children => children
    | .string _ => []
  let tx ← type2Transaction expectedChainID fields
  let digest ← ethereumType2SigningDigest tx
  let fromAddress ← require (recoverDigestAddress digest tx.signature) (newError "invalid ethereum type2 signature")
  let tx := { tx with fromAddress }
  let canonical ← ethereumType2SignedBytes tx
  refuseIf (encoded ≠ canonical) (newError "ethereum type2 transaction is not canonically encoded")
  let tx := { tx with ethereumRawHash := keccakHex canonical }
  validateRawTransaction tx
  return tx

/-- `DecodeRawTransactionForChain` on the decoded bytes. -/
def decodeRawTransactionForChain [Primitives] [DecodesJson Transaction] (encoded : List UInt8) (chainID : String) :
    Result Transaction :=
  if encoded.head? = some 0x02 then decodeEthereumType2RawTransaction encoded chainID
  else decodeChainLabRawTransactionBytes encoded

end ChainLab.Types
