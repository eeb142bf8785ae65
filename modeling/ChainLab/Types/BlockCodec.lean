import ChainLab.Types.Block
import ChainLab.Types.Codec

/-! The encodings of transactions, receipts and blocks can be read back. A transaction type outside the protocol's list
is written by its name, so that this holds for transactions of listed types. -/

namespace ChainLab.Types

open ChainLab.Lib

/-- A type of the protocol's list. -/
def TxType.Listed : TxType → Prop
  | .unknown _ => False
  | _ => True

def BatchOperation.Listed (operation : BatchOperation) : Prop := operation.type.Listed

/-- The type of the transaction and those of its batch are listed. -/
structure Transaction.Listed (tx : Transaction) : Prop where
  type : tx.type.Listed
  batch : ∀ operation ∈ tx.batch, operation.Listed

def Block.Listed (block : Block) : Prop := ∀ tx ∈ block.transactions, tx.Listed

abbrev ListedOperation := { operation : BatchOperation // operation.Listed }

abbrev ListedTransaction := { tx : Transaction // tx.Listed }

abbrev ListedBlock := { block : Block // block.Listed }

theorem TxType.name_inj {left right : TxType} (hleft : left.Listed) (hright : right.Listed)
    (h : left.name = right.name) : left = right := by
  cases left <;> cases right <;> first | rfl | exact hleft.elim | exact hright.elim | exact absurd h (by decide)

section Fields

variable {α γ : Type} (name : String)

theorem typePart {part : α → TxType} (hlisted : ∀ a, (part a).Listed) :
    Part name (fun a => jsonField name (jsonString (part a).name)) part where
  named _ f hf := (Option.some.inj hf) ▸ rfl
  separate a b f hf g hg := by
    obtain rfl := Option.some.inj hf
    obtain rfl := Option.some.inj hg
    exact readable_jsonString.separate _ _
  determines a b heq := by
    have hnames := readable_jsonString.injective (Prod.mk.inj (Option.some.inj heq)).2
    exact TxType.name_inj (hlisted a) (hlisted b) hnames

/-- A list field whose elements can be read back, as far as they occur. -/
theorem listPart {P : γ → Prop} {encode : γ → JsonText} (h : Readable fun item : { item // P item } => encode item.1)
    (part : α → List γ) (hpart : ∀ a, ∀ item ∈ part a, P item) :
    Part name (fun a => jsonOmitEmpty (part a).isEmpty name (jsonArray ((part a).map encode))) part := by
  have hfield := Part.omitEmpty (readable_jsonArray h) name (fun a => (part a).attachWith P (hpart a)) []
    List.isEmpty fun _ => List.isEmpty_iff.mp
  have hitems : ∀ a, ((part a).attachWith P (hpart a)).map (fun item => encode item.1) = (part a).map encode :=
    fun a => List.attachWith_map_val (hpart a)
  have hempty : ∀ a, ((part a).attachWith P (hpart a)).isEmpty = (part a).isEmpty := by
    intro a
    rw [Bool.eq_iff_iff, List.isEmpty_iff, List.isEmpty_iff, List.attachWith_eq_nil_iff]
  simp only [hitems, hempty] at hfield
  refine ⟨hfield.named, hfield.separate, fun a b heq => ?_⟩
  have hvalues := congrArg (List.map Subtype.val) (hfield.determines a b heq)
  rwa [List.attachWith_map_subtype_val, List.attachWith_map_subtype_val] at hvalues

/-- A list field of a type that can be read back. -/
theorem arrayPart {encode : γ → JsonText} (h : Readable encode) (part : α → List γ) :
    Part name (fun a => jsonOmitEmpty (part a).isEmpty name (jsonArray ((part a).map encode))) part :=
  .omitEmpty (readable_jsonArray h) name part [] List.isEmpty fun _ => List.isEmpty_iff.mp

/-- A pointer field, as the model writes it. -/
theorem pointerPart {encode : γ → JsonText} (h : Readable encode) (part : α → Option γ) :
    Part name (fun a => (part a).bind fun value => jsonField name (encode value)) part := by
  have hfield := Part.optional h name part
  have hmap : ∀ a, (part a).map (fun value => (name, encode value)) =
      (part a).bind fun value => jsonField name (encode value) := by
    intro a
    cases part a with
    | none => rfl
    | some _ => rfl
  rwa [funext hmap] at hfield

end Fields

/-! ### Transactions and receipts -/

theorem readable_authorization : Readable Authorization.json :=
  Parts.readable (.cons (.field readable_jsonString "signer" Authorization.signer) <|
    .cons (textPart "signature" Authorization.signature) .nil) (by decide)
    (by
      rintro ⟨⟩ ⟨⟩ ⟨rfl, rfl, -⟩
      rfl)

theorem readable_batchOperation : Readable fun operation : ListedOperation => operation.1.json :=
  Parts.readable (.cons (typePart "type" fun operation : ListedOperation => operation.2) <|
    .cons (textPart "to" fun operation : ListedOperation => operation.1.toAddress) <|
    .cons (uintPart "value" fun operation : ListedOperation => operation.1.value) <|
    .cons (mapPart "payload" readable_jsonString fun operation : ListedOperation => operation.1.payload) .nil) (by decide)
    (by
      rintro ⟨⟨⟩, _⟩ ⟨⟨⟩, _⟩ ⟨rfl, rfl, rfl, rfl, -⟩
      rfl)

theorem readable_transaction : Readable fun tx : ListedTransaction => tx.1.json :=
  Parts.readable (.cons (.field readable_jsonString "chain_id" fun tx : ListedTransaction => tx.1.chainID) <|
    .cons (typePart "type" fun tx : ListedTransaction => tx.2.type) <|
    .cons (.field readable_jsonString "from" fun tx : ListedTransaction => tx.1.fromAddress) <|
    .cons (textPart "signer" fun tx : ListedTransaction => tx.1.signer) <|
    .cons (textPart "to" fun tx : ListedTransaction => tx.1.toAddress) <|
    .cons (.field readable_jsonUint "nonce" fun tx : ListedTransaction => tx.1.nonce) <|
    .cons (uintPart "value" fun tx : ListedTransaction => tx.1.value) <|
    .cons (.field readable_jsonUint "gas_limit" fun tx : ListedTransaction => tx.1.gasLimit) <|
    .cons (uintPart "gas_price" fun tx : ListedTransaction => tx.1.gasPrice) <|
    .cons (uintPart "max_fee_per_gas" fun tx : ListedTransaction => tx.1.maxFeePerGas) <|
    .cons (uintPart "max_priority_fee_per_gas" fun tx : ListedTransaction => tx.1.maxPriorityFeePerGas) <|
    .cons (textPart "paymaster" fun tx : ListedTransaction => tx.1.paymaster) <|
    .cons (mapPart "payload" readable_jsonString fun tx : ListedTransaction => tx.1.payload) <|
    .cons (listPart "batch" readable_batchOperation (fun tx : ListedTransaction => tx.1.batch)
      fun tx : ListedTransaction => tx.2.batch) <|
    .cons (arrayPart "authorizations" readable_authorization fun tx : ListedTransaction => tx.1.authorizations) <|
    .cons (textPart "signature" fun tx : ListedTransaction => tx.1.signature) <|
    .cons (textPart "paymaster_signature" fun tx : ListedTransaction => tx.1.paymasterSignature) <|
    .cons (textPart "signature_kind" fun tx : ListedTransaction => tx.1.signatureKind) <|
    .cons (textPart "ethereum_raw_hash" fun tx : ListedTransaction => tx.1.ethereumRawHash) .nil) (by decide)
    (by
      rintro ⟨⟨⟩, _⟩ ⟨⟨⟩, _⟩
        ⟨rfl, rfl, rfl, rfl, rfl, rfl, rfl, rfl, rfl, rfl, rfl, rfl, rfl, rfl, rfl, rfl, rfl, rfl, rfl, -⟩
      rfl)

theorem readable_event : Readable Event.json :=
  Parts.readable (.cons (.field readable_jsonString "type" Event.type) <|
    .cons (mapPart "attributes" readable_jsonString Event.attributes) .nil) (by decide)
    (by
      rintro ⟨⟩ ⟨⟩ ⟨rfl, rfl, -⟩
      rfl)

theorem readable_receipt : Readable Receipt.json :=
  Parts.readable (.cons (.field readable_jsonString "tx_hash" Receipt.txHash) <|
    .cons (.field readable_jsonBool "success" Receipt.success) <|
    .cons (textPart "failure_code" Receipt.failureCode) <| .cons (textPart "error" Receipt.error) <|
    .cons (.field readable_jsonUint "gas_used" Receipt.gasUsed) <|
    .cons (uintPart "base_fee_per_gas" Receipt.baseFeePerGas) <|
    .cons (uintPart "effective_gas_price" Receipt.effectiveGasPrice) <|
    .cons (textPart "fee_payer" Receipt.feePayer) <| .cons (uintPart "base_fee_burned" Receipt.baseFeeBurned) <|
    .cons (uintPart "priority_fee_paid" Receipt.priorityFeePaid) <|
    .cons (arrayPart "events" readable_event Receipt.events) <| .cons (textPart "code_id" Receipt.codeID) <|
    .cons (textPart "proposal_id" Receipt.proposalID) <|
    .cons (textPart "contract_address" Receipt.contractAddress) .nil) (by decide)
    (by
      rintro ⟨⟩ ⟨⟩ ⟨rfl, rfl, rfl, rfl, rfl, rfl, rfl, rfl, rfl, rfl, rfl, rfl, rfl, rfl, -⟩
      rfl)

/-! ### Blocks -/

theorem readable_blockHeader : Readable BlockHeader.json :=
  Parts.readable (.cons (.field readable_jsonString "chain_id" BlockHeader.chainID) <|
    .cons (.field readable_jsonUint "height" BlockHeader.height) <|
    .cons (.field readable_jsonString "parent_hash" BlockHeader.parentHash) <|
    .cons (.field readable_jsonInt "time_unix" BlockHeader.timeUnix) <|
    .cons (.field readable_jsonString "proposer" BlockHeader.proposer) <|
    .cons (uintPart "gas_limit" BlockHeader.gasLimit) <| .cons (uintPart "gas_used" BlockHeader.gasUsed) <|
    .cons (uintPart "base_fee_per_gas" BlockHeader.baseFeePerGas) <|
    .cons (.field readable_jsonString "tx_root" BlockHeader.txRoot) <|
    .cons (.field readable_jsonString "receipt_root" BlockHeader.receiptRoot) <|
    .cons (.field readable_jsonString "state_root" BlockHeader.stateRoot) .nil) (by decide)
    (by
      rintro ⟨⟩ ⟨⟩ ⟨rfl, rfl, rfl, rfl, rfl, rfl, rfl, rfl, rfl, rfl, rfl, -⟩
      rfl)

theorem readable_finalitySignature : Readable FinalitySignature.json :=
  Parts.readable (.cons (.field readable_jsonString "chain_id" FinalitySignature.chainID) <|
    .cons (.field readable_jsonUint "height" FinalitySignature.height) <|
    .cons (.field readable_jsonString "block_hash" FinalitySignature.blockHash) <|
    .cons (.field readable_jsonString "validator" FinalitySignature.validator) <|
    .cons (.field readable_jsonString "signature" FinalitySignature.signature) .nil) (by decide)
    (by
      rintro ⟨⟩ ⟨⟩ ⟨rfl, rfl, rfl, rfl, rfl, -⟩
      rfl)

/-- A nil slice is written `null`, which no array is. -/
theorem readable_goSlice {γ : Type} {encode : γ → JsonText} (h : Readable encode) : Readable (GoSlice.json encode) := by
  refine .of_append_inj ?_ ?_
  · intro left right r r' hr hr' heq
    cases left with
    | none =>
      cases right with
      | none => exact ⟨rfl, List.append_cancel_left heq⟩
      | some items => exact absurd (List.cons.inj heq).1 (by decide)
    | some items =>
      cases right with
      | none => exact absurd (List.cons.inj heq).1 (by decide)
      | some others =>
        obtain ⟨hitems, hrest⟩ := (readable_jsonArray h).append_inj hr hr' heq
        exact ⟨congrArg some hitems, hrest⟩
  · rintro (_ | items)
    · exact ⟨'n', "ull".toList, rfl, by decide, by decide⟩
    · exact (readable_jsonArray h).opens items

theorem readable_finalityCertificate : Readable FinalityCertificate.json :=
  Parts.readable (.cons (.field readable_jsonString "chain_id" FinalityCertificate.chainID) <|
    .cons (.field readable_jsonUint "height" FinalityCertificate.height) <|
    .cons (.field readable_jsonString "block_hash" FinalityCertificate.blockHash) <|
    .cons (.field (readable_goSlice readable_finalitySignature) "signatures" FinalityCertificate.signatures) .nil)
    (by decide)
    (by
      rintro ⟨⟩ ⟨⟩ ⟨rfl, rfl, rfl, rfl, -⟩
      rfl)

theorem readable_block : Readable fun block : ListedBlock => block.1.json :=
  Parts.readable (.cons (.field readable_blockHeader "header" fun block : ListedBlock => block.1.header) <|
    .cons (listPart "transactions" readable_transaction (fun block : ListedBlock => block.1.transactions)
      fun block : ListedBlock => block.2) <|
    .cons (arrayPart "receipts" readable_receipt fun block : ListedBlock => block.1.receipts) <|
    .cons (textPart "signature" fun block : ListedBlock => block.1.signature) <|
    .cons (pointerPart "finality_certificate" readable_finalityCertificate
      fun block : ListedBlock => block.1.finalityCertificate) .nil)
    (by decide)
    (by
      rintro ⟨⟨⟩, _⟩ ⟨⟨⟩, _⟩ ⟨rfl, rfl, rfl, rfl, rfl, -⟩
      rfl)

/-- Blocks of listed types that are written alike are equal. -/
theorem Block.json_injective {left right : Block} (hleft : left.Listed) (hright : right.Listed)
    (h : utf8Bytes left.json = utf8Bytes right.json) : left = right := by
  have hsubtype : (⟨left, hleft⟩ : ListedBlock) = ⟨right, hright⟩ :=
    readable_block.injective (utf8Bytes_injective h)
  exact congrArg Subtype.val hsubtype

end ChainLab.Types
