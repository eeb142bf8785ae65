import ChainLab.Types.Block

/-! The indexes of the canonical chain: transactions by hash, and the events in block order. -/

namespace ChainLab.Node

open ChainLab.Lib ChainLab.Types ChainLab.Crypto

structure TransactionRecord where
  transaction : Transaction
  receipt : Receipt
  blockHeight : UInt64
  blockHash : String
  index : Nat
  deriving DecidableEq, Inhabited

structure EventRecord where
  event : Event
  address : String
  topic0 : String
  blockHeight : UInt64
  blockHash : String
  transactionHash : String
  transactionIndex : Nat
  eventIndex : Nat
  logIndex : UInt64 := 0
  deriving DecidableEq, Inhabited

/-- `EventSourceAddress`. -/
def eventSourceAddress (tx : Transaction) (receipt : Receipt) : String :=
  if receipt.contractAddress ≠ "" then receipt.contractAddress
  else match tx.type with
    | .call => tx.toAddress
    | .setCode | .sessionKey | .accountRecovery => tx.fromAddress
    | _ => ""

/-- The two indexes that the node keeps. -/
structure ChainIndex where
  txIndex : GoMap String TransactionRecord := ∅
  eventIndex : List EventRecord := []

section Indexing

variable [Primitives]

/-- `eventTopic0`. -/
def eventTopic0 (event : Event) : String := keccakHex (utf8Bytes (runes event.type))

/-- The records of one transaction's events; events without an address get no number of their own. -/
def eventRecords (block : Block) (tx : Transaction) (receipt : Receipt) (transactionIndex : Nat)
    (blockLogIndex : UInt64) : List EventRecord :=
  let address := toLower (eventSourceAddress tx receipt)
  receipt.events.zipIdx.map fun (event, eventIndex) =>
    { event, address, topic0 := eventTopic0 event, blockHeight := block.header.height, blockHash := block.hash
      transactionHash := tx.hash, transactionIndex, eventIndex
      logIndex := if address ≠ "" then blockLogIndex + UInt64.ofNat eventIndex else 0 }

/-- The receipt that stands for a transaction of the block. -/
def receiptAt (block : Block) (index : Nat) (tx : Transaction) : Receipt :=
  (block.receipts[index]?).getD { txHash := tx.hash }

/-- One round of the loop of `indexBlock`, with the number of the next log of the block. -/
def indexTransaction (block : Block) (state : ChainIndex × UInt64) (entry : Transaction × Nat) :
    ChainIndex × UInt64 :=
  let (tx, index) := entry
  let receipt := receiptAt block index tx
  let record : TransactionRecord :=
    { transaction := tx, receipt, blockHeight := block.header.height, blockHash := block.hash, index }
  let logs := if toLower (eventSourceAddress tx receipt) ≠ "" then UInt64.ofNat receipt.events.length else 0
  ({ txIndex := state.1.txIndex.insert tx.hash record
     eventIndex := state.1.eventIndex ++ eventRecords block tx receipt index state.2 }, state.2 + logs)

/-- `indexBlock`. -/
def indexBlock (index : ChainIndex) (block : Block) : ChainIndex :=
  (block.transactions.zipIdx.foldl (indexTransaction block) (index, 0)).1

/-- `rebuildTxIndex`. -/
def rebuildTxIndex (blocks : List Block) : ChainIndex := blocks.foldl indexBlock {}

end Indexing

end ChainLab.Node
