import ChainLab.Lib.Json

/-! Consensus data of the chain, field by field as the Go structs declare it, with the canonical JSON
text that hashes and signatures are taken over. -/

namespace ChainLab.Types

open ChainLab.Lib

def maxValidators : Nat := 4096
def maxChainIDBytes : Nat := 128
def maxTransactionBytes : Nat := 2 * 1024 * 1024
def maxBlockBytes : Nat := 16 * 1024 * 1024
def maxTransactionsPerBlock : Nat := 4096
def maxWASMModuleBytes : Nat := 512 * 1024
def wasmMeteringVersion : String := "chainlab-wasm-v1"
def defaultBlockGasLimit : UInt64 := 30000000
def initialBaseFeePerGas : UInt64 := 1
def maxBatchOperations : Nat := 128

/-- `TxType`. A name outside the protocol's list is kept as it was sent. -/
inductive TxType where
  | transfer | batch | deploy | call | setCode | sessionKey | accountRecovery | wasmUpload | stake
  | unstake | proposalSubmit | proposalExecute | vote | validatorJoin | validatorLeave | validatorSlash
  | unknown (name : String)
  deriving DecidableEq, Inhabited

def TxType.name : TxType → String
  | .transfer => "transfer"
  | .batch => "batch"
  | .deploy => "deploy"
  | .call => "call"
  | .setCode => "set_code"
  | .sessionKey => "account.session_key"
  | .accountRecovery => "account.recovery"
  | .wasmUpload => "wasm.upload"
  | .stake => "stake"
  | .unstake => "unstake"
  | .proposalSubmit => "proposal.submit"
  | .proposalExecute => "proposal.execute"
  | .vote => "vote"
  | .validatorJoin => "validator.join"
  | .validatorLeave => "validator.leave"
  | .validatorSlash => "validator.slash"
  | .unknown name => name

def signatureKindEthereumType2 : String := "ethereum.type2"

/-- The string fields of a payload, of contract arguments and of event attributes. -/
abbrev Fields := GoMap String String

structure Account where
  address : String := ""
  balance : UInt64 := 0
  nonce : UInt64 := 0
  codeID : String := ""
  delegatedCodeID : String := ""
  storage : Fields := ∅
  deriving DecidableEq, Inhabited

structure Authorization where
  signer : String
  signature : String := ""
  deriving DecidableEq, Inhabited

structure BatchOperation where
  type : TxType
  toAddress : String := ""
  value : UInt64 := 0
  payload : Fields := ∅
  deriving DecidableEq, Inhabited

structure Transaction where
  chainID : String
  type : TxType
  fromAddress : String
  signer : String := ""
  toAddress : String := ""
  nonce : UInt64 := 0
  value : UInt64 := 0
  gasLimit : UInt64 := 0
  gasPrice : UInt64 := 0
  maxFeePerGas : UInt64 := 0
  maxPriorityFeePerGas : UInt64 := 0
  paymaster : String := ""
  payload : Fields := ∅
  batch : List BatchOperation := []
  authorizations : List Authorization := []
  signature : String := ""
  paymasterSignature : String := ""
  signatureKind : String := ""
  ethereumRawHash : String := ""
  deriving DecidableEq, Inhabited

structure Event where
  type : String := ""
  attributes : Fields := ∅
  deriving DecidableEq, Inhabited

def receiptFailureExecutionReverted : String := "execution_reverted"
def receiptFailureOutOfGas : String := "out_of_gas"
def receiptFailureContractTrap : String := "contract_trap"
def receiptFailureResourceLimit : String := "resource_limit"

structure Receipt where
  txHash : String := ""
  success : Bool := false
  failureCode : String := ""
  error : String := ""
  gasUsed : UInt64 := 0
  baseFeePerGas : UInt64 := 0
  effectiveGasPrice : UInt64 := 0
  feePayer : String := ""
  baseFeeBurned : UInt64 := 0
  priorityFeePaid : UInt64 := 0
  events : List Event := []
  codeID : String := ""
  proposalID : String := ""
  contractAddress : String := ""
  deriving DecidableEq, Inhabited

structure ContractCode where
  codeID : String := ""
  runtime : String := ""
  meteringVersion : String := ""
  creator : String := ""
  bytecode : String := ""
  deriving DecidableEq, Inhabited

structure Proposal where
  id : String := ""
  proposer : String := ""
  title : String := ""
  description : String := ""
  kind : String := ""
  param : String := ""
  value : String := ""
  status : String := ""
  submitHeight : UInt64 := 0
  votingEndHeight : UInt64 := 0
  votes : GoMap String UInt64 := ∅
  voters : Fields := ∅
  deriving DecidableEq, Inhabited

/-- A string field tagged `omitempty`. -/
def textField (name value : String) : Option (String × JsonText) :=
  jsonOmitEmpty (value = "") name (jsonString value)

/-- A number field tagged `omitempty`. -/
def uintField (name : String) (value : UInt64) : Option (String × JsonText) :=
  jsonOmitEmpty (value = 0) name (jsonUint value)

/-- A map field tagged `omitempty`. -/
def mapField (name : String) (value : Fields) : Option (String × JsonText) :=
  jsonOmitEmpty (GoMap.len value = 0) name (jsonMap jsonString value)

def BatchOperation.json (operation : BatchOperation) : JsonText :=
  jsonObject [jsonField "type" (jsonString operation.type.name), textField "to" operation.toAddress,
    uintField "value" operation.value, mapField "payload" operation.payload]

def Authorization.json (authorization : Authorization) : JsonText :=
  jsonObject [jsonField "signer" (jsonString authorization.signer),
    textField "signature" authorization.signature]

def Transaction.json (tx : Transaction) : JsonText :=
  jsonObject [jsonField "chain_id" (jsonString tx.chainID), jsonField "type" (jsonString tx.type.name),
    jsonField "from" (jsonString tx.fromAddress), textField "signer" tx.signer, textField "to" tx.toAddress,
    jsonField "nonce" (jsonUint tx.nonce), uintField "value" tx.value,
    jsonField "gas_limit" (jsonUint tx.gasLimit), uintField "gas_price" tx.gasPrice,
    uintField "max_fee_per_gas" tx.maxFeePerGas,
    uintField "max_priority_fee_per_gas" tx.maxPriorityFeePerGas, textField "paymaster" tx.paymaster,
    mapField "payload" tx.payload,
    jsonOmitEmpty tx.batch.isEmpty "batch" (jsonArray (tx.batch.map BatchOperation.json)),
    jsonOmitEmpty tx.authorizations.isEmpty "authorizations"
      (jsonArray (tx.authorizations.map Authorization.json)),
    textField "signature" tx.signature, textField "paymaster_signature" tx.paymasterSignature,
    textField "signature_kind" tx.signatureKind, textField "ethereum_raw_hash" tx.ethereumRawHash]

def Event.json (event : Event) : JsonText :=
  jsonObject [jsonField "type" (jsonString event.type), mapField "attributes" event.attributes]

def Receipt.json (receipt : Receipt) : JsonText :=
  jsonObject [jsonField "tx_hash" (jsonString receipt.txHash),
    jsonField "success" (jsonBool receipt.success), textField "failure_code" receipt.failureCode,
    textField "error" receipt.error, jsonField "gas_used" (jsonUint receipt.gasUsed),
    uintField "base_fee_per_gas" receipt.baseFeePerGas,
    uintField "effective_gas_price" receipt.effectiveGasPrice, textField "fee_payer" receipt.feePayer,
    uintField "base_fee_burned" receipt.baseFeeBurned,
    uintField "priority_fee_paid" receipt.priorityFeePaid,
    jsonOmitEmpty receipt.events.isEmpty "events" (jsonArray (receipt.events.map Event.json)),
    textField "code_id" receipt.codeID, textField "proposal_id" receipt.proposalID,
    textField "contract_address" receipt.contractAddress]

def Account.json (account : Account) : JsonText :=
  jsonObject [jsonField "address" (jsonString account.address), jsonField "balance" (jsonUint account.balance),
    jsonField "nonce" (jsonUint account.nonce), textField "code_id" account.codeID,
    textField "delegated_code_id" account.delegatedCodeID, mapField "storage" account.storage]

def ContractCode.json (code : ContractCode) : JsonText :=
  jsonObject [jsonField "code_id" (jsonString code.codeID), jsonField "runtime" (jsonString code.runtime),
    jsonField "metering_version" (jsonString code.meteringVersion),
    jsonField "creator" (jsonString code.creator), jsonField "bytecode" (jsonString code.bytecode)]

def Proposal.json (proposal : Proposal) : JsonText :=
  jsonObject [jsonField "id" (jsonString proposal.id), textField "proposer" proposal.proposer,
    textField "title" proposal.title, textField "description" proposal.description,
    textField "kind" proposal.kind, textField "param" proposal.param, textField "value" proposal.value,
    textField "status" proposal.status, uintField "submit_height" proposal.submitHeight,
    uintField "voting_end_height" proposal.votingEndHeight,
    jsonField "votes" (jsonMap jsonUint proposal.votes), jsonField "voters" (jsonMap jsonString proposal.voters)]

/-- `SigningBytes`: the transaction with every signature cleared. -/
def Transaction.signingBytes (tx : Transaction) : List UInt8 :=
  utf8Bytes (Transaction.json { tx with
    signature := "", paymasterSignature := ""
    authorizations := tx.authorizations.map fun a => { a with signature := "" } })

/-- `PaymasterSigningBytes`: everything but the paymaster's own signature. -/
def Transaction.paymasterSigningBytes (tx : Transaction) : List UInt8 :=
  utf8Bytes (Transaction.json { tx with paymasterSignature := "" })

/-- `FinalityVoteSigningBytes`. -/
def finalityVoteSigningBytes (chainID : String) (height : UInt64) (blockHash : String) : List UInt8 :=
  utf8Bytes (jsonObject [jsonField "chain_id" (jsonString chainID), jsonField "height" (jsonUint height),
    jsonField "block_hash" (jsonString blockHash)])

end ChainLab.Types
