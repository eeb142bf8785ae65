import ChainLab.Types.Schema

/-! Blocks of the lab node: headers, finality certificates, and the roots that a header commits to. -/

namespace ChainLab.Types

open ChainLab.Lib ChainLab.Crypto

/-- A Go slice, of which `encoding/json` tells the nil one from an empty one. -/
abbrev GoSlice (α : Type) := Option (List α)

namespace GoSlice

variable {α : Type}

/-- What a `range` loop over the slice visits. -/
def items (slice : GoSlice α) : List α := slice.getD []

@[simp] theorem items_some (list : List α) : items (some list) = list := rfl

@[simp] theorem items_none : items (none : GoSlice α) = [] := rfl

def json (element : α → JsonText) (slice : GoSlice α) : JsonText :=
  slice.elim "null".toList fun list => jsonArray (list.map element)

end GoSlice

structure BlockHeader where
  chainID : String := ""
  height : UInt64 := 0
  parentHash : String := ""
  timeUnix : Int64 := 0
  proposer : String := ""
  gasLimit : UInt64 := 0
  gasUsed : UInt64 := 0
  baseFeePerGas : UInt64 := 0
  txRoot : String := ""
  receiptRoot : String := ""
  stateRoot : String := ""
  deriving DecidableEq, Inhabited

structure FinalitySignature where
  chainID : String := ""
  height : UInt64 := 0
  blockHash : String := ""
  validator : String := ""
  signature : String := ""
  deriving DecidableEq, Inhabited

structure FinalityCertificate where
  chainID : String := ""
  height : UInt64 := 0
  blockHash : String := ""
  signatures : GoSlice FinalitySignature := none
  deriving DecidableEq, Inhabited

structure Block where
  header : BlockHeader
  transactions : List Transaction := []
  receipts : List Receipt := []
  signature : String := ""
  finalityCertificate : Option FinalityCertificate := none
  deriving DecidableEq, Inhabited

def BlockHeader.json (header : BlockHeader) : JsonText :=
  jsonObject [jsonField "chain_id" (jsonString header.chainID), jsonField "height" (jsonUint header.height),
    jsonField "parent_hash" (jsonString header.parentHash), jsonField "time_unix" (jsonInt header.timeUnix),
    jsonField "proposer" (jsonString header.proposer),
    uintField "gas_limit" header.gasLimit, uintField "gas_used" header.gasUsed,
    uintField "base_fee_per_gas" header.baseFeePerGas,
    jsonField "tx_root" (jsonString header.txRoot), jsonField "receipt_root" (jsonString header.receiptRoot),
    jsonField "state_root" (jsonString header.stateRoot)]

def FinalitySignature.json (vote : FinalitySignature) : JsonText :=
  jsonObject [jsonField "chain_id" (jsonString vote.chainID), jsonField "height" (jsonUint vote.height),
    jsonField "block_hash" (jsonString vote.blockHash), jsonField "validator" (jsonString vote.validator),
    jsonField "signature" (jsonString vote.signature)]

def FinalityCertificate.json (certificate : FinalityCertificate) : JsonText :=
  jsonObject [jsonField "chain_id" (jsonString certificate.chainID),
    jsonField "height" (jsonUint certificate.height),
    jsonField "block_hash" (jsonString certificate.blockHash),
    jsonField "signatures" (certificate.signatures.json FinalitySignature.json)]

def Block.json (block : Block) : JsonText :=
  jsonObject [jsonField "header" block.header.json,
    jsonOmitEmpty block.transactions.isEmpty "transactions" (jsonArray (block.transactions.map Transaction.json)),
    jsonOmitEmpty block.receipts.isEmpty "receipts" (jsonArray (block.receipts.map Receipt.json)),
    textField "signature" block.signature,
    block.finalityCertificate.bind fun certificate => jsonField "finality_certificate" certificate.json]

/-- `BlockHeader.SigningBytes`. -/
def BlockHeader.signingBytes (header : BlockHeader) : List UInt8 := utf8Bytes header.json

section Hashes

variable [Primitives]

/-- `Block.Hash`: a block is named by its header. -/
def Block.hash (block : Block) : String := keccakHex block.header.signingBytes

/-- The hash of a list of hashes. -/
def listRoot (hashes : List String) : String := keccakHex (utf8Bytes (jsonArray (hashes.map jsonString)))

/-- `TransactionRoot`. -/
def transactionRoot (txs : List Transaction) : String := listRoot (txs.map Transaction.hash)

/-- `ReceiptRoot`. -/
def receiptRoot (receipts : List Receipt) : String :=
  listRoot (receipts.map fun receipt => keccakHex (utf8Bytes receipt.json))

/-- `GenesisBlock`. -/
def genesisBlock (chainID stateRoot : String) (genesisTimeUnix : Int64) : Block where
  header := {
    chainID, height := 0, parentHash := "", timeUnix := genesisTimeUnix, proposer := "genesis"
    gasLimit := defaultBlockGasLimit, baseFeePerGas := initialBaseFeePerGas
    txRoot := transactionRoot [], receiptRoot := receiptRoot [], stateRoot }

end Hashes

end ChainLab.Types
