import ChainLab.Lib.JsonSize
import ChainLab.Lib.Loops
import ChainLab.Node.Limits

/-! The size functions against the encodings that they are about: the piecewise sum is the length of the
block's document, and the raw contents are never more than it. -/

namespace ChainLab.Node

open ChainLab.Lib ChainLab.Types ChainLab.Crypto

/-! ### Sums -/

theorem checkedSizeAdd_ok {left right : Nat} (h : left + right < 2 ^ 64) :
    checkedSizeAdd left right = .ok (left + right) := by
  have hmax := toNat_maxUint64
  rw [checkedSizeAdd, refuseIf_ok (u := ()) |>.mpr (by omega)]
  rfl

/-- A loop whose rounds each add the weight of their item, as long as the total stays below a limit. -/
theorem foldlM_adds {α : Type} (limit : Nat) (weight : α → Nat) {round : Nat → α → Result Nat} (items : List α)
    (hround : ∀ total, ∀ item ∈ items, total + weight item < limit → round total item = .ok (total + weight item)) :
    ∀ {total : Nat}, total + (items.map weight).sum < limit →
      items.foldlM round total = .ok (total + (items.map weight).sum) := by
  induction items with
  | nil => exact fun _ => rfl
  | cons item rest ih =>
    intro total hlimit
    rw [List.map_cons, List.sum_cons] at hlimit ⊢
    rw [List.foldlM_cons, hround total item List.mem_cons_self (by omega)]
    refine (ih (fun t i hi => hround t i (List.mem_cons_of_mem _ hi)) (by omega)).trans ?_
    rw [Nat.add_assoc]

theorem checkedSizeAdd_inv {left right size : Nat} (h : checkedSizeAdd left right = .ok size) :
    size = left + right := by
  simp only [checkedSizeAdd, bind_ok, refuseIf_ok, exists_const, pure_eq_ok, Except.ok.injEq] at h
  exact h.2.symm

theorem foldlM_adds_inv {α : Type} (weight : α → Nat) {round : Nat → α → Result Nat} (items : List α)
    (hround : ∀ total item size, round total item = .ok size → size = total + weight item) :
    ∀ {total size : Nat}, items.foldlM round total = .ok size → size = total + (items.map weight).sum := by
  induction items with
  | nil =>
    intro total size h
    cases h
    rfl
  | cons item rest ih =>
    intro total size h
    rw [List.foldlM_cons, bind_ok] at h
    obtain ⟨next, hnext, h⟩ := h
    rw [ih h, hround total item next hnext, List.map_cons, List.sum_cons, Nat.add_assoc]

/-! ### Raw contents -/

def stringSizes (values : List String) : Nat := (values.map len).sum

/-- A map's entries, keys and values. -/
def fieldSizes (fields : Fields) : Nat :=
  GoMap.len fields + (fields.sortedKeys.map fun key => stringSizes [key, GoMap.get fields key]).sum

def rawOperation (operation : BatchOperation) : Nat :=
  stringSizes [operation.type.name, operation.toAddress] + fieldSizes operation.payload

def rawAuthorization (authorization : Authorization) : Nat :=
  stringSizes [authorization.signer, authorization.signature]

/-- The raw content of a transaction. -/
def rawTransaction (tx : Transaction) : Nat :=
  stringSizes [tx.chainID, tx.type.name, tx.fromAddress, tx.signer, tx.toAddress, tx.paymaster, tx.signature,
    tx.paymasterSignature, tx.signatureKind, tx.ethereumRawHash] + fieldSizes tx.payload +
    tx.batch.length + (tx.batch.map rawOperation).sum +
    tx.authorizations.length + (tx.authorizations.map rawAuthorization).sum

def rawEvent (event : Event) : Nat := stringSizes [event.type] + fieldSizes event.attributes

/-- The raw content of a receipt. -/
def rawReceipt (receipt : Receipt) : Nat :=
  stringSizes [receipt.txHash, receipt.failureCode, receipt.error, receipt.feePayer, receipt.codeID,
    receipt.proposalID, receipt.contractAddress] + receipt.events.length + (receipt.events.map rawEvent).sum

def rawSignature (vote : FinalitySignature) : Nat :=
  stringSizes [vote.chainID, vote.blockHash, vote.validator, vote.signature]

def rawCertificate (certificate : FinalityCertificate) : Nat :=
  stringSizes [certificate.chainID, certificate.blockHash] + certificate.signatures.items.length +
    (certificate.signatures.items.map rawSignature).sum

def rawHeader (header : BlockHeader) : Nat :=
  stringSizes [header.chainID, header.parentHash, header.proposer, header.txRoot, header.receiptRoot, header.stateRoot]

/-- The raw content of a block, which `validateBlockRawContentSize` adds up. -/
def rawBlock (block : Block) : Nat :=
  rawHeader block.header + (block.transactions.map rawTransaction).sum +
    (block.receipts.map rawReceipt).sum + len block.signature + block.finalityCertificate.elim 0 rawCertificate

theorem addStringSizes_ok {total : Nat} {values : List String} (h : total + stringSizes values < 2 ^ 64) :
    addStringSizes total values = .ok (total + stringSizes values) :=
  foldlM_adds (2 ^ 64) len values (fun _ _ _ => checkedSizeAdd_ok) h

theorem addFieldSizes_ok {total : Nat} {fields : Fields} (h : total + fieldSizes fields < 2 ^ 64) :
    addFieldSizes total fields = .ok (total + fieldSizes fields) := by
  unfold fieldSizes at h ⊢
  rw [addFieldSizes, checkedSizeAdd_ok (by omega), ← Nat.add_assoc]
  exact foldlM_adds (2 ^ 64) _ _ (fun _ _ _ => addStringSizes_ok) (by omega)

theorem transactionRawContentSize_ok {tx : Transaction} (h : rawTransaction tx < 2 ^ 64) :
    transactionRawContentSize tx = .ok (rawTransaction tx) := by
  have hoperation (total : Nat) (operation : BatchOperation) (hfits : total + rawOperation operation < 2 ^ 64) :
      (do
        let total ← addStringSizes total [operation.type.name, operation.toAddress]
        addFieldSizes total operation.payload) = .ok (total + rawOperation operation) := by
    unfold rawOperation at hfits ⊢
    rw [addStringSizes_ok (by omega), ← Nat.add_assoc]
    exact addFieldSizes_ok (by omega)
  unfold rawTransaction at h ⊢
  simp only [transactionRawContentSize, bind_ok]
  refine ⟨_, addStringSizes_ok (by omega), _, addFieldSizes_ok (by omega), _, checkedSizeAdd_ok (by omega), _,
    foldlM_adds (2 ^ 64) rawOperation _ (fun total operation _ => hoperation total operation) (by omega), _,
    checkedSizeAdd_ok (by omega), ?_⟩
  refine (foldlM_adds (2 ^ 64) rawAuthorization _ (fun _ _ _ => addStringSizes_ok) (by omega)).trans ?_
  rw [Nat.zero_add]

theorem receiptRawContentSize_ok {receipt : Receipt} (h : rawReceipt receipt < 2 ^ 64) :
    receiptRawContentSize receipt = .ok (rawReceipt receipt) := by
  have hevent (total : Nat) (event : Event) (hfits : total + rawEvent event < 2 ^ 64) :
      (do
        let total ← addStringSizes total [event.type]
        addFieldSizes total event.attributes) = .ok (total + rawEvent event) := by
    unfold rawEvent at hfits ⊢
    rw [addStringSizes_ok (by omega), ← Nat.add_assoc]
    exact addFieldSizes_ok (by omega)
  unfold rawReceipt at h ⊢
  simp only [receiptRawContentSize, bind_ok]
  refine ⟨_, addStringSizes_ok (by omega), _, checkedSizeAdd_ok (by omega), ?_⟩
  refine (foldlM_adds (2 ^ 64) rawEvent _ (fun total event _ => hevent total event) (by omega)).trans ?_
  rw [Nat.zero_add]

theorem addStringSizes_inv {total size : Nat} {values : List String} (h : addStringSizes total values = .ok size) :
    size = total + stringSizes values :=
  foldlM_adds_inv len values (fun _ _ _ => checkedSizeAdd_inv) h

theorem addFieldSizes_inv {total size : Nat} {fields : Fields} (h : addFieldSizes total fields = .ok size) :
    size = total + fieldSizes fields := by
  obtain ⟨entries, hentries, h⟩ := bind_ok.mp h
  have hsum := foldlM_adds_inv (fun key => stringSizes [key, GoMap.get fields key]) _ (fun _ _ _ => addStringSizes_inv) h
  rw [hsum, checkedSizeAdd_inv hentries, fieldSizes, Nat.add_assoc]

theorem transactionRawContentSize_inv {tx : Transaction} {size : Nat} (h : transactionRawContentSize tx = .ok size) :
    size = rawTransaction tx := by
  have hoperation (total : Nat) (operation : BatchOperation) (next : Nat)
      (hround : (do
        let total ← addStringSizes total [operation.type.name, operation.toAddress]
        addFieldSizes total operation.payload) = .ok next) : next = total + rawOperation operation := by
    obtain ⟨strings, hstrings, hround⟩ := bind_ok.mp hround
    rw [addFieldSizes_inv hround, addStringSizes_inv hstrings, rawOperation, Nat.add_assoc]
  simp only [transactionRawContentSize, bind_ok] at h
  obtain ⟨strings, hstrings, payload, hpayload, batch, hbatch, operations, hoperations, count, hcount, h⟩ := h
  rw [foldlM_adds_inv rawAuthorization _ (fun _ _ _ => addStringSizes_inv) h, checkedSizeAdd_inv hcount,
    foldlM_adds_inv rawOperation _ hoperation hoperations, checkedSizeAdd_inv hbatch, addFieldSizes_inv hpayload,
    addStringSizes_inv hstrings, Nat.zero_add, rawTransaction]

theorem receiptRawContentSize_inv {receipt : Receipt} {size : Nat} (h : receiptRawContentSize receipt = .ok size) :
    size = rawReceipt receipt := by
  have hevent (total : Nat) (event : Event) (next : Nat)
      (hround : (do
        let total ← addStringSizes total [event.type]
        addFieldSizes total event.attributes) = .ok next) : next = total + rawEvent event := by
    obtain ⟨strings, hstrings, hround⟩ := bind_ok.mp hround
    rw [addFieldSizes_inv hround, addStringSizes_inv hstrings, rawEvent, Nat.add_assoc]
  simp only [receiptRawContentSize, bind_ok] at h
  obtain ⟨strings, hstrings, count, hcount, h⟩ := h
  rw [foldlM_adds_inv rawEvent _ hevent h, checkedSizeAdd_inv hcount, addStringSizes_inv hstrings, Nat.zero_add,
    rawReceipt]

theorem stringSizes_singleton (s : String) : stringSizes [s] = len s := Nat.add_zero (len s)

private theorem validateBlockRawContentSize_of_le {block : Block} (hblock : rawBlock block ≤ maxBlockBytes)
    (htxs : ∀ tx ∈ block.transactions, rawTransaction tx ≤ maxTransactionBytes) :
    validateBlockRawContentSize block = .ok () := by
  have hsmall : maxBlockBytes < 2 ^ 64 := by decide
  have hsmallTx : maxTransactionBytes < 2 ^ 64 := by decide
  have hsignature := stringSizes_singleton block.signature
  unfold rawBlock rawHeader at hblock
  simp only [validateBlockRawContentSize, bind_ok, refuseIf_ok, not_lt]
  refine ⟨_, addStringSizes_ok (by omega), _,
    foldlM_adds (maxBlockBytes + 1) rawTransaction _ (fun total tx htx hfits => ?_) (by omega), _,
    foldlM_adds (maxBlockBytes + 1) rawReceipt _ (fun total receipt hreceipt hfits => ?_) (by omega), _,
    addStringSizes_ok (by omega), ?_⟩
  · have htx := htxs tx htx
    simp only [bind_ok, refuseIf_ok, exists_const, not_lt, pure_eq_ok, Except.ok.injEq]
    exact ⟨_, transactionRawContentSize_ok (by omega), htx, _, checkedSizeAdd_ok (by omega), by omega, rfl⟩
  · simp only [bind_ok, refuseIf_ok, exists_const, not_lt, pure_eq_ok, Except.ok.injEq]
    exact ⟨_, receiptRawContentSize_ok (by omega), _, checkedSizeAdd_ok (by omega), by omega, rfl⟩
  · rw [hsignature]
    cases hcertificate : block.finalityCertificate with
    | none =>
      rw [hcertificate, Option.elim_none] at hblock
      exact ⟨_, rfl, by omega⟩
    | some certificate =>
      rw [hcertificate, Option.elim_some] at hblock
      unfold rawCertificate at hblock
      simp only [bind_ok]
      refine ⟨_, ⟨_, addStringSizes_ok (by omega), _, checkedSizeAdd_ok (by omega),
        foldlM_adds (2 ^ 64) rawSignature _ (fun _ _ _ => addStringSizes_ok) (by omega)⟩, by omega⟩

/-- The raw check is the bound on the raw contents, of the block and of each of its transactions. -/
theorem validateBlockRawContentSize_ok {block : Block} : validateBlockRawContentSize block = .ok () ↔
    rawBlock block ≤ maxBlockBytes ∧ ∀ tx ∈ block.transactions, rawTransaction tx ≤ maxTransactionBytes := by
  refine ⟨fun h => ?_, fun h => validateBlockRawContentSize_of_le h.1 h.2⟩
  simp only [validateBlockRawContentSize, bind_ok, refuseIf_ok, not_lt] at h
  obtain ⟨header, hheader, txs, htxs, receipts, hreceipts, signature, hsignature, total, htotal, hlimit⟩ := h
  have htx (total : Nat) (tx : Transaction) (next : Nat) (hround : (do
      let txSize ← transactionRawContentSize tx
      refuseIf (txSize > maxTransactionBytes) (newError "transaction exceeds 2097152 bytes")
      let total ← checkedSizeAdd total txSize
      refuseIf (total > maxBlockBytes) (newError "block exceeds 16777216 bytes")
      return total) = .ok next) : next = total + rawTransaction tx ∧ rawTransaction tx ≤ maxTransactionBytes := by
    simp only [bind_ok, refuseIf_ok, exists_const, not_lt, pure_eq_ok, Except.ok.injEq] at hround
    obtain ⟨size, hsize, hbound, sum, hsum, -, rfl⟩ := hround
    rw [transactionRawContentSize_inv hsize] at hbound hsum
    exact ⟨checkedSizeAdd_inv hsum, hbound⟩
  have hreceipt (total : Nat) (receipt : Receipt) (next : Nat) (hround : (do
      let receiptSize ← receiptRawContentSize receipt
      let total ← checkedSizeAdd total receiptSize
      refuseIf (total > maxBlockBytes) (newError "block exceeds 16777216 bytes")
      return total) = .ok next) : next = total + rawReceipt receipt := by
    simp only [bind_ok, refuseIf_ok, exists_const, not_lt, pure_eq_ok, Except.ok.injEq] at hround
    obtain ⟨size, hsize, sum, hsum, -, rfl⟩ := hround
    rw [receiptRawContentSize_inv hsize] at hsum
    exact checkedSizeAdd_inv hsum
  have hsum : signature = rawHeader block.header + (block.transactions.map rawTransaction).sum +
      (block.receipts.map rawReceipt).sum + len block.signature := by
    rw [addStringSizes_inv hsignature, foldlM_adds_inv rawReceipt _ hreceipt hreceipts,
      foldlM_adds_inv rawTransaction _ (fun total tx next hround => (htx total tx next hround).1) htxs,
      addStringSizes_inv hheader, Nat.zero_add, stringSizes_singleton, rawHeader]
  have hcertificate : total = signature + block.finalityCertificate.elim 0 rawCertificate := by
    cases hcase : block.finalityCertificate with
    | none =>
      rw [hcase] at htotal
      exact (Except.ok.inj htotal).symm
    | some certificate =>
      simp only [hcase, bind_ok] at htotal
      obtain ⟨strings, hstrings, count, hcount, htotal⟩ := htotal
      rw [foldlM_adds_inv rawSignature _ (fun _ _ _ => addStringSizes_inv) htotal, checkedSizeAdd_inv hcount,
        addStringSizes_inv hstrings, Option.elim_some, rawCertificate]
      omega
  constructor
  · rw [rawBlock, ← hsum, ← hcertificate]
    exact hlimit
  · intro tx hmem
    obtain ⟨total, next, hround⟩ := foldlM_visits _ htxs tx hmem
    exact (htx total tx next hround).2

/-! ### Raw contents against encodings -/

theorem len_le_textField (name s : String) : len s ≤ fieldSize (textField name s) := by
  by_cases hempty : s = ""
  · subst hempty
    exact Nat.zero_le _
  · rw [textField, jsonOmitEmpty, if_neg (by simpa using hempty)]
    exact len_le_fieldSize name s

theorem fieldSizes_le_mapField (name : String) (fields : Fields) : fieldSizes fields ≤ fieldSize (mapField name fields) := by
  have hcontents := contents_le_jsonMap fields
  have hsizes : fieldSizes fields = GoMap.len fields +
      (fields.sortedKeys.map fun key => len key + len (GoMap.get fields key)).sum := by
    simp [fieldSizes, stringSizes]
  by_cases hempty : GoMap.len fields = 0
  · have hnil : fields.sortedKeys = [] := by
      rw [GoMap.len_eq_zero.mp hempty]
      rfl
    rw [hsizes, hempty, hnil]
    exact Nat.zero_le _
  · have hpresent : mapField name fields = jsonField name (jsonMap jsonString fields) := by
      rw [mapField, jsonOmitEmpty, if_neg (by simpa using hempty)]
      rfl
    rw [hpresent, fieldSize_jsonField]
    omega

/-- An array field tagged `omitempty`. -/
theorem contents_le_arrayField {α : Type} {content : α → Nat} {json : α → JsonText}
    (h : ∀ item, content item + 2 ≤ jsonSize (json item)) (name : String) (items : List α) :
    items.length + (items.map content).sum ≤
      fieldSize (jsonOmitEmpty items.isEmpty name (jsonArray (items.map json))) := by
  cases items with
  | nil => exact le_rfl
  | cons item rest =>
    have hcontents := contents_le_jsonArray h (item :: rest)
    have hpresent : jsonOmitEmpty (item :: rest).isEmpty name (jsonArray ((item :: rest).map json)) =
        jsonField name (jsonArray ((item :: rest).map json)) := rfl
    rw [hpresent, fieldSize_jsonField]
    omega

theorem rawOperation_le (operation : BatchOperation) : rawOperation operation + 2 ≤ jsonSize operation.json := by
  have hcontents : _ ≤ jsonSize operation.json := contents_le_jsonObject <|
    .cons (len_le_fieldSize _ operation.type.name) <| .cons (len_le_textField _ operation.toAddress) <|
    .cons (Nat.zero_le _) <| .cons (fieldSizes_le_mapField _ operation.payload) .nil
  simp only [List.sum_cons, List.sum_nil] at hcontents
  simp only [rawOperation, stringSizes, List.map_cons, List.map_nil, List.sum_cons, List.sum_nil]
  omega

theorem rawAuthorization_le (authorization : Authorization) :
    rawAuthorization authorization + 2 ≤ jsonSize authorization.json :=
  contents_le_jsonObject <| .cons (len_le_fieldSize _ authorization.signer) <|
    .cons (len_le_textField _ authorization.signature) .nil

/-- The raw content of a transaction is never more than its encoding. -/
theorem rawTransaction_le (tx : Transaction) : rawTransaction tx + 2 ≤ jsonSize tx.json := by
  have hcontents : _ ≤ jsonSize tx.json := contents_le_jsonObject <|
    .cons (len_le_fieldSize _ tx.chainID) <| .cons (len_le_fieldSize _ tx.type.name) <|
    .cons (len_le_fieldSize _ tx.fromAddress) <| .cons (len_le_textField _ tx.signer) <|
    .cons (len_le_textField _ tx.toAddress) <| .cons (Nat.zero_le _) <| .cons (Nat.zero_le _) <|
    .cons (Nat.zero_le _) <| .cons (Nat.zero_le _) <| .cons (Nat.zero_le _) <| .cons (Nat.zero_le _) <|
    .cons (len_le_textField _ tx.paymaster) <| .cons (fieldSizes_le_mapField _ tx.payload) <|
    .cons (contents_le_arrayField rawOperation_le _ tx.batch) <|
    .cons (contents_le_arrayField rawAuthorization_le _ tx.authorizations) <|
    .cons (len_le_textField _ tx.signature) <| .cons (len_le_textField _ tx.paymasterSignature) <|
    .cons (len_le_textField _ tx.signatureKind) <| .cons (len_le_textField _ tx.ethereumRawHash) .nil
  simp only [List.sum_cons, List.sum_nil] at hcontents
  simp only [rawTransaction, stringSizes, List.map_cons, List.map_nil, List.sum_cons, List.sum_nil]
  linarith only [hcontents]

theorem rawEvent_le (event : Event) : rawEvent event + 2 ≤ jsonSize event.json :=
  contents_le_jsonObject <| .cons (len_le_fieldSize _ event.type) <|
    .cons (fieldSizes_le_mapField _ event.attributes) .nil

/-- The raw content of a receipt is never more than its encoding. -/
theorem rawReceipt_le (receipt : Receipt) : rawReceipt receipt + 2 ≤ jsonSize receipt.json := by
  have hcontents : _ ≤ jsonSize receipt.json := contents_le_jsonObject <|
    .cons (len_le_fieldSize _ receipt.txHash) <| .cons (Nat.zero_le _) <|
    .cons (len_le_textField _ receipt.failureCode) <| .cons (len_le_textField _ receipt.error) <|
    .cons (Nat.zero_le _) <| .cons (Nat.zero_le _) <| .cons (Nat.zero_le _) <|
    .cons (len_le_textField _ receipt.feePayer) <| .cons (Nat.zero_le _) <| .cons (Nat.zero_le _) <|
    .cons (contents_le_arrayField rawEvent_le _ receipt.events) <|
    .cons (len_le_textField _ receipt.codeID) <| .cons (len_le_textField _ receipt.proposalID) <|
    .cons (len_le_textField _ receipt.contractAddress) .nil
  simp only [List.sum_cons, List.sum_nil] at hcontents
  simp only [rawReceipt, stringSizes, List.map_cons, List.map_nil, List.sum_cons, List.sum_nil]
  omega

theorem rawSignature_le (vote : FinalitySignature) : rawSignature vote + 2 ≤ jsonSize vote.json := by
  have hcontents : _ ≤ jsonSize vote.json := contents_le_jsonObject <|
    .cons (len_le_fieldSize _ vote.chainID) <| .cons (Nat.zero_le _) <| .cons (len_le_fieldSize _ vote.blockHash) <|
    .cons (len_le_fieldSize _ vote.validator) <| .cons (len_le_fieldSize _ vote.signature) .nil
  simp only [List.sum_cons, List.sum_nil] at hcontents
  simp only [rawSignature, stringSizes, List.map_cons, List.map_nil, List.sum_cons, List.sum_nil]
  omega

theorem rawCertificate_le (certificate : FinalityCertificate) :
    rawCertificate certificate ≤ jsonSize certificate.json := by
  have hsignatures : certificate.signatures.items.length + (certificate.signatures.items.map rawSignature).sum ≤
      fieldSize (jsonField "signatures" (certificate.signatures.json FinalitySignature.json)) := by
    rw [fieldSize_jsonField]
    cases certificate.signatures with
    | none => exact Nat.zero_le _
    | some signatures =>
      have hitems : _ ≤ jsonSize (GoSlice.json FinalitySignature.json (some signatures)) :=
        contents_le_jsonArray rawSignature_le signatures
      exact hitems.trans (Nat.le_add_left _ _)
  have hcontents : _ ≤ jsonSize certificate.json := contents_le_jsonObject <|
    .cons (len_le_fieldSize _ certificate.chainID) <| .cons (Nat.zero_le _) <|
    .cons (len_le_fieldSize _ certificate.blockHash) <| .cons hsignatures .nil
  simp only [List.sum_cons, List.sum_nil] at hcontents
  simp only [rawCertificate, stringSizes, List.map_cons, List.map_nil, List.sum_cons, List.sum_nil]
  omega

theorem rawHeader_le (header : BlockHeader) : rawHeader header + 2 ≤ jsonSize header.json := by
  have hcontents : _ ≤ jsonSize header.json := contents_le_jsonObject <|
    .cons (len_le_fieldSize _ header.chainID) <| .cons (Nat.zero_le _) <|
    .cons (len_le_fieldSize _ header.parentHash) <| .cons (Nat.zero_le _) <|
    .cons (len_le_fieldSize _ header.proposer) <| .cons (Nat.zero_le _) <| .cons (Nat.zero_le _) <|
    .cons (Nat.zero_le _) <| .cons (len_le_fieldSize _ header.txRoot) <|
    .cons (len_le_fieldSize _ header.receiptRoot) <| .cons (len_le_fieldSize _ header.stateRoot) .nil
  simp only [List.sum_cons, List.sum_nil] at hcontents
  simp only [rawHeader, stringSizes, List.map_cons, List.map_nil, List.sum_cons, List.sum_nil]
  omega

/-- The raw content of a block is never more than its encoding. -/
theorem rawBlock_le (block : Block) : rawBlock block ≤ jsonSize block.json := by
  have hheader : rawHeader block.header ≤ fieldSize (jsonField "header" block.header.json) := by
    have := rawHeader_le block.header
    rw [fieldSize_jsonField]
    omega
  have hcertificate : block.finalityCertificate.elim 0 rawCertificate ≤ fieldSize
      (block.finalityCertificate.bind fun certificate => jsonField "finality_certificate" certificate.json) := by
    cases block.finalityCertificate with
    | none => exact Nat.zero_le _
    | some certificate => exact (rawCertificate_le certificate).trans (Nat.le_add_left _ _)
  have hcontents : _ ≤ jsonSize block.json := contents_le_jsonObject <| .cons hheader <|
    .cons (contents_le_arrayField rawTransaction_le _ block.transactions) <|
    .cons (contents_le_arrayField rawReceipt_le _ block.receipts) <|
    .cons (len_le_textField _ block.signature) <| .cons hcertificate .nil
  simp only [List.sum_cons, List.sum_nil] at hcontents
  unfold rawBlock
  omega

/-! ### The mirror -/

/-- A size that is computed piece by piece against the length that it stands for: it is that length, unless it
was given up above the block limit, and it is there whenever the length is one of a byte slice. -/
structure Mirrors (outcome : Result Nat) (length : Nat) : Prop where
  sound : ∀ size, outcome = .ok size → size = length ∨ maxBlockBytes < size ∧ size ≤ length
  total : length < 2 ^ 64 → ∃ size, outcome = .ok size

/-- Within the limit the size is the length. -/
theorem Mirrors.exact {outcome : Result Nat} {length : Nat} (h : Mirrors outcome length)
    (hlimit : length ≤ maxBlockBytes) : outcome = .ok length := by
  have hsmall : maxBlockBytes < 2 ^ 64 := by decide
  obtain ⟨size, hsize⟩ := h.total (by omega)
  rcases h.sound size hsize with heq | ⟨hover, hle⟩
  · rw [hsize, heq]
  · omega

/-- A size given up above the limit. -/
theorem Mirrors.of_exceeded {size length : Nat} (hlimit : maxBlockBytes < size) (hle : size ≤ length) :
    Mirrors (.ok size) length where
  sound := fun _ h => .inr (Except.ok.inj h ▸ ⟨hlimit, hle⟩)
  total := fun _ => ⟨size, rfl⟩

theorem Mirrors.last {left right length : Nat} (hle : left + right ≤ length)
    (hlast : left + right = length ∨ maxBlockBytes < left + right) : Mirrors (checkedSizeAdd left right) length where
  sound := by
    intro size hsize
    rw [checkedSizeAdd_inv hsize]
    exact hlast.imp_right fun hlimit => ⟨hlimit, hle⟩
  total := fun hfits => ⟨_, checkedSizeAdd_ok (by omega)⟩

theorem Mirrors.add {left right length : Nat} {next : Nat → Result Nat} (hle : left + right ≤ length)
    (h : Mirrors (next (left + right)) length) : Mirrors (checkedSizeAdd left right >>= next) length where
  sound := by
    intro size hsize
    obtain ⟨sum, hsum, hsize⟩ := bind_ok.mp hsize
    rw [checkedSizeAdd_inv hsum] at hsize
    exact h.sound size hsize
  total := by
    intro hfits
    obtain ⟨size, hsize⟩ := h.total hfits
    exact ⟨size, bind_ok.mpr ⟨_, checkedSizeAdd_ok (by omega), hsize⟩⟩

/-- A part that has a mirror of its own. -/
theorem Mirrors.part {outcome : Result Nat} {part length : Nat} {next : Nat → Result Nat} (h : Mirrors outcome part)
    (hle : part ≤ length)
    (hnext : ∀ size, size ≤ part → size = part ∨ maxBlockBytes < size → Mirrors (next size) length) :
    Mirrors (outcome >>= next) length := by
  have hsize (size : Nat) (hok : outcome = .ok size) : Mirrors (next size) length := by
    rcases h.sound size hok with heq | ⟨hlimit, hbound⟩
    · exact hnext size heq.le (.inl heq)
    · exact hnext size hbound (.inr hlimit)
  constructor
  · intro final hfinal
    obtain ⟨size, hok, hfinal⟩ := bind_ok.mp hfinal
    exact (hsize size hok).sound final hfinal
  · intro hfits
    obtain ⟨size, hok⟩ := h.total (by omega)
    obtain ⟨final, hfinal⟩ := (hsize size hok).total hfits
    exact ⟨final, bind_ok.mpr ⟨size, hok, hfinal⟩⟩

theorem Mirrors.check {cond : Prop} {_ : Decidable cond} {err : GoError} {length : Nat} {next : Unit → Result Nat}
    (hpass : ¬cond) (h : Mirrors (next ()) length) : Mirrors (refuseIf cond err >>= next) length := by
  rw [refuseIf_ok (u := ()) |>.mpr hpass]
  exact h

/-- The items of an array that are still to be added, and their commas. -/
def itemSizes {α : Type} (weight : α → Nat) (index : Nat) (items : List α) : Nat :=
  (items.map weight).sum + (items.length - if index = 0 then 1 else 0)

/-- A loop over an array either ends with all of its items or gives up above the limit. -/
theorem Mirrors.array {α : Type} (weight : α → Nat) {size : Nat → α → Result Nat} {after : ArraySize → Result Nat}
    {length : Nat} (hexceeded : ∀ total, after (.exceeded total) = .ok total) :
    ∀ (items : List α) (index total : Nat), (∀ item ∈ items, ∀ index, size index item = .ok (weight item)) →
      total + itemSizes weight index items ≤ length →
      Mirrors (after (.complete (total + itemSizes weight index items))) length →
      Mirrors (addArraySize size index items total >>= after) length := by
  intro items
  induction items with
  | nil =>
    intro index total _ _ hafter
    have hnone : itemSizes weight index ([] : List α) = 0 := by simp [itemSizes]
    rw [hnone] at hafter
    exact hafter
  | cons item rest ih =>
    intro index total hsize hle hafter
    have hitems : itemSizes weight index (item :: rest) =
        (if index = 0 then 0 else 1) + weight item + itemSizes weight (index + 1) rest := by
      simp only [itemSizes, List.map_cons, List.sum_cons, List.length_cons, Nat.add_one_ne_zero, if_false]
      split_ifs <;> omega
    have hrest : ∀ item ∈ rest, ∀ index, size index item = .ok (weight item) :=
      fun item hitem => hsize item (List.mem_cons_of_mem _ hitem)
    -- the round once its comma is added
    have hround (start : Nat) (hstart : start + weight item + itemSizes weight (index + 1) rest =
        total + itemSizes weight index (item :: rest)) : Mirrors ((do
          let itemSize ← size index item
          let total ← checkedSizeAdd start itemSize
          if total > maxBlockBytes then return .exceeded total
          else addArraySize size (index + 1) rest total) >>= after) length := by
      rw [hsize item List.mem_cons_self index]
      change Mirrors ((checkedSizeAdd start (weight item) >>= _) >>= after) length
      rw [bind_assoc]
      refine Mirrors.add (by omega) ?_
      by_cases hlimit : start + weight item > maxBlockBytes
      · rw [if_pos hlimit]
        rw [pure_bind, hexceeded]
        exact Mirrors.of_exceeded hlimit (by omega)
      · rw [if_neg hlimit]
        exact ih (index + 1) _ hrest (by omega) (hstart ▸ hafter)
    rw [addArraySize]
    by_cases hfirst : index = 0
    · subst hfirst
      exact hround total (by rw [hitems, if_pos rfl]; omega)
    · rw [if_pos (Nat.pos_of_ne_zero hfirst), bind_assoc]
      rw [hitems, if_neg hfirst] at hle
      exact Mirrors.add (by omega) (hround (total + 1) (by rw [hitems, if_neg hfirst]; omega))

/-- What a certificate's encoding adds to the payload of its votes. -/
theorem jsonSize_certificate (certificate : FinalityCertificate) : jsonSize certificate.json =
    (finalityVoteSigningBytes certificate.chainID certificate.height certificate.blockHash).length - 1 +
      len ",\"signatures\":" + jsonSize (certificate.signatures.json FinalitySignature.json) + 1 := by
  have hlabel : jsonSize (jsonString "signatures") = 12 := by decide
  have hopening : len ",\"signatures\":" = 14 := by decide
  have hpayload : (finalityVoteSigningBytes certificate.chainID certificate.height certificate.blockHash).length =
      jsonSize (jsonObject [jsonField "chain_id" (jsonString certificate.chainID),
        jsonField "height" (jsonUint certificate.height),
        jsonField "block_hash" (jsonString certificate.blockHash)]) := rfl
  rw [hpayload, FinalityCertificate.json, jsonSize_jsonObject_cons, jsonSize_jsonObject_cons]
  simp only [List.map_cons, List.map_nil, List.sum_cons, List.sum_nil, laterFieldSize_jsonField, hlabel, hopening]
  omega

theorem canonicalFinalityCertificateSize_mirrors (certificate : FinalityCertificate) :
    Mirrors (canonicalFinalityCertificateSize certificate) (jsonSize certificate.json) := by
  have hsize := jsonSize_certificate certificate
  have hpayload : 0 < (finalityVoteSigningBytes certificate.chainID certificate.height certificate.blockHash).length := by
    have := fieldSizes_le_jsonSize [jsonField "chain_id" (jsonString certificate.chainID),
        jsonField "height" (jsonUint certificate.height), jsonField "block_hash" (jsonString certificate.blockHash)]
    exact Nat.lt_of_lt_of_le Nat.zero_lt_two ((Nat.le_add_left _ _).trans this)
  unfold canonicalFinalityCertificateSize
  refine Mirrors.check (Nat.ne_of_gt hpayload) (Mirrors.add (by omega) ?_)
  cases hsignatures : certificate.signatures with
  | none =>
    have hnull : jsonSize (GoSlice.json FinalitySignature.json none) = len "null" := by decide
    rw [hsignatures, hnull] at hsize
    exact Mirrors.add (by omega) (Mirrors.last (by omega) (.inl (by omega)))
  | some signatures =>
    have harray : jsonSize (GoSlice.json FinalitySignature.json (some signatures)) =
        itemSizes (fun vote => jsonSize (FinalitySignature.json vote)) 0 signatures + 2 := by
      rw [GoSlice.json, Option.elim_some, jsonSize_jsonArray, List.map_map, List.length_map]
      rfl
    rw [hsignatures, harray] at hsize
    refine Mirrors.add (by omega)
      (Mirrors.array (fun vote => jsonSize (FinalitySignature.json vote)) (fun _ => rfl) signatures 0 _
        (fun _ _ _ => rfl) (by omega) ?_)
    exact Mirrors.add (by omega) (Mirrors.last (by omega) (.inl (by omega)))

/-- What an array adds to the block. -/
def arrayFieldSize {α : Type} (opening : String) (weight : α → Nat) (items : List α) : Nat :=
  if items = [] then 0 else len opening + itemSizes weight 0 items + 1

theorem Mirrors.arrayField {α : Type} (weight : α → Nat) {size : Nat → α → Result Nat} {after : Nat → Result Nat}
    {opening : String} {items : List α} {total length : Nat}
    (hsize : ∀ item ∈ items, ∀ index, size index item = .ok (weight item))
    (hle : total + arrayFieldSize opening weight items ≤ length)
    (hafter : Mirrors (after (total + arrayFieldSize opening weight items)) length) :
    Mirrors (addArrayField opening size items total after) length := by
  unfold addArrayField
  by_cases hempty : items = []
  · rw [arrayFieldSize, if_pos hempty] at hafter
    rw [if_pos hempty]
    exact hafter
  · rw [arrayFieldSize, if_neg hempty] at hle hafter
    rw [if_neg hempty]
    refine Mirrors.add (by omega) (Mirrors.array weight (fun _ => rfl) items 0 _ hsize (by omega) ?_)
    refine Mirrors.add (by omega) ?_
    rw [Nat.add_assoc, Nat.add_assoc, ← Nat.add_assoc (len opening)]
    exact hafter

/-- The sizes of a block's parts; a block's encoding is made of them. -/
theorem jsonSize_block (block : Block) : jsonSize block.json =
    len "\x7b\"header\":" + jsonSize block.header.json +
      arrayFieldSize ",\"transactions\":[" (fun tx => jsonSize (Transaction.json tx)) block.transactions +
      arrayFieldSize ",\"receipts\":[" (fun receipt => jsonSize (Receipt.json receipt)) block.receipts +
      (if block.signature = "" then 0 else len ",\"signature\":" + jsonSize (jsonString block.signature)) +
      block.finalityCertificate.elim 0 (fun certificate =>
        len ",\"finality_certificate\":" + jsonSize certificate.json) + 1 := by
  have harray {α : Type} (name opening : String) (json : α → JsonText) (items : List α)
      (hopening : len opening = jsonSize (jsonString name) + 3) :
      laterFieldSize (jsonOmitEmpty items.isEmpty name (jsonArray (items.map json))) =
        arrayFieldSize opening (fun item => jsonSize (json item)) items := by
    cases items with
    | nil => rfl
    | cons item rest =>
      have hpresent : laterFieldSize (jsonOmitEmpty (item :: rest).isEmpty name (jsonArray ((item :: rest).map json))) =
          1 + (jsonSize (jsonString name) + 1 + jsonSize (jsonArray ((item :: rest).map json))) := rfl
      have hitems : itemSizes (fun item => jsonSize (json item)) 0 (item :: rest) =
          (((item :: rest).map json).map jsonSize).sum + (((item :: rest).map json).length - 1) := by
        rw [List.map_map, List.length_map]
        rfl
      rw [hpresent, jsonSize_jsonArray, arrayFieldSize, if_neg (List.cons_ne_nil _ _), hitems, hopening]
      omega
  have hsignature : laterFieldSize (textField "signature" block.signature) =
      if block.signature = "" then 0 else len ",\"signature\":" + jsonSize (jsonString block.signature) := by
    by_cases hempty : block.signature = ""
    · rw [if_pos hempty, hempty]
      rfl
    · have hlabel : len ",\"signature\":" = jsonSize (jsonString "signature") + 2 := by decide
      have hpresent : textField "signature" block.signature = jsonField "signature" (jsonString block.signature) := by
        rw [textField, jsonOmitEmpty, if_neg (by simpa using hempty)]
        rfl
      rw [if_neg hempty, hpresent, laterFieldSize_jsonField, hlabel]
      omega
  have hcertificate : laterFieldSize
      (block.finalityCertificate.bind fun certificate => jsonField "finality_certificate" certificate.json) =
      block.finalityCertificate.elim 0 (fun certificate =>
        len ",\"finality_certificate\":" + jsonSize certificate.json) := by
    cases block.finalityCertificate with
    | none => rfl
    | some certificate =>
      have hlabel : len ",\"finality_certificate\":" = jsonSize (jsonString "finality_certificate") + 2 := by decide
      rw [Option.bind_some, Option.elim_some, laterFieldSize_jsonField, hlabel]
      omega
  have hheader : len "\x7b\"header\":" = jsonSize (jsonString "header") + 2 := by decide
  rw [Block.json, jsonSize_jsonObject_cons, fieldSize_jsonField]
  simp only [List.map_cons, List.map_nil, List.sum_cons, List.sum_nil]
  rw [harray "transactions" ",\"transactions\":[" _ _ (by decide), harray "receipts" ",\"receipts\":[" _ _ (by decide),
    hsignature, hcertificate, hheader]
  omega

/-- Transactions within the limit are measured by their encodings. -/
theorem canonicalTransactionSize_ok {tx : Transaction} (h : jsonSize tx.json ≤ maxTransactionBytes) :
    canonicalTransactionSize tx = .ok (jsonSize tx.json) := by
  have hraw := rawTransaction_le tx
  have hsmall : maxTransactionBytes < 2 ^ 64 := by decide
  simp only [canonicalTransactionSize, bind_ok, refuseIf_ok, exists_const, not_lt, pure_eq_ok, Except.ok.injEq]
  exact ⟨_, transactionRawContentSize_ok (by omega), by omega, h, rfl⟩

/-- What follows the signature in the encoding of a block: the certificate, if there is one, and the closing brace. -/
theorem certificateSize_mirrors {size : Nat} (certificate : Option FinalityCertificate) (total : Nat)
    (htotal : total + certificate.elim 0 (fun certificate =>
      len ",\"finality_certificate\":" + jsonSize certificate.json) + 1 = size) :
    Mirrors ((match certificate with
      | some certificate => do
        let total ← checkedSizeAdd total (len ",\"finality_certificate\":")
        let certificateSize ← canonicalFinalityCertificateSize certificate
        checkedSizeAdd total certificateSize
      | none => .ok total) >>= fun total => checkedSizeAdd total 1) size := by
  cases certificate with
  | none =>
    rw [Option.elim_none] at htotal
    exact Mirrors.last (by omega) (.inl (by omega))
  | some certificate =>
    rw [Option.elim_some] at htotal
    simp only [bind_assoc]
    refine Mirrors.add (by omega) ?_
    refine Mirrors.part (canonicalFinalityCertificateSize_mirrors certificate) (by omega) fun size hle hcase => ?_
    exact Mirrors.add (by omega) (Mirrors.last (by omega) (hcase.imp (by omega) (by omega)))

/-- The piecewise size of a block mirrors its encoding. -/
theorem canonicalBlockSize_mirrors {block : Block}
    (htxs : ∀ tx ∈ block.transactions, jsonSize tx.json ≤ maxTransactionBytes) :
    Mirrors (canonicalBlockSize block) (jsonSize block.json) := by
  have hsize := jsonSize_block block
  have htx : ∀ tx ∈ block.transactions, ∀ index, (canonicalTransactionSize tx).mapError
      (GoError.annotate ("block transaction " ++ itoa index ++ ": ")) = .ok (jsonSize tx.json) := by
    intro tx hmem index
    rw [canonicalTransactionSize_ok (htxs tx hmem)]
    rfl
  unfold canonicalBlockSize
  change Mirrors (checkedSizeAdd _ (jsonSize block.header.json) >>= _) _
  refine Mirrors.add (by omega) ?_
  refine Mirrors.arrayField (fun tx => jsonSize (Transaction.json tx)) htx (by omega) ?_
  refine Mirrors.arrayField (fun receipt => jsonSize (Receipt.json receipt)) (fun _ _ _ => rfl) (by omega) ?_
  generalize len "\x7b\"header\":" + jsonSize block.header.json +
      arrayFieldSize ",\"transactions\":[" (fun tx => jsonSize (Transaction.json tx)) block.transactions +
      arrayFieldSize ",\"receipts\":[" (fun receipt => jsonSize (Receipt.json receipt)) block.receipts = before at hsize ⊢
  by_cases hempty : block.signature = ""
  · rw [if_pos hempty] at hsize
    rw [if_neg (not_not.mpr hempty)]
    exact certificateSize_mirrors block.finalityCertificate before (by omega)
  · rw [if_neg hempty] at hsize
    rw [if_pos hempty, bind_assoc]
    refine Mirrors.add (by omega) ?_
    change Mirrors (checkedSizeAdd _ (jsonSize (jsonString block.signature)) >>= _) _
    exact Mirrors.add (by omega) (certificateSize_mirrors block.finalityCertificate _ (by omega))

/-! ### The limits -/

/-- A block within the count limits. -/
structure WithinCounts (block : Block) : Prop where
  transactions : block.transactions.length ≤ maxTransactionsPerBlock
  receipts : block.receipts.length ≤ maxTransactionsPerBlock
  signatures : ∀ certificate ∈ block.finalityCertificate,
    certificate.signatures.items.length ≤ maxFinalitySignaturesPerBlock

theorem validateBlockCheapBounds_ok {block : Block} : validateBlockCheapBounds block = .ok () ↔
    WithinCounts block ∧ block.receipts.length = block.transactions.length ∧
      validateBlockRawContentSize block = .ok () := by
  simp only [validateBlockCheapBounds, bind_ok, refuseIf_ok, exists_const, not_lt, not_not, not_exists, not_and]
  constructor
  · rintro ⟨htransactions, hreceipts, hmatch, hsignatures, hraw⟩
    exact ⟨⟨htransactions, hreceipts, hsignatures⟩, hmatch, hraw⟩
  · rintro ⟨hcounts, hmatch, hraw⟩
    exact ⟨hcounts.transactions, hcounts.receipts, hmatch, hcounts.signatures, hraw⟩

/-- The size functions decide on a block as its encoding would. -/
theorem canonicalBlockSize_decides (block : Block) (hcounts : WithinCounts block)
    (htxs : ∀ tx ∈ block.transactions, (utf8Bytes tx.json).length ≤ maxTransactionBytes) :
    (∀ size, canonicalBlockSize block = .ok size →
      (maxBlockBytes < size ↔ maxBlockBytes < (utf8Bytes block.json).length) ∧
      ((utf8Bytes block.json).length ≤ maxBlockBytes → size = (utf8Bytes block.json).length)) ∧
    ((utf8Bytes block.json).length < 2 ^ 64 → ∃ size, canonicalBlockSize block = .ok size) ∧
    rawBlock block ≤ (utf8Bytes block.json).length ∧
    ((utf8Bytes block.json).length ≤ maxBlockBytes → validateBlockRawContentSize block = .ok () ∧
      (block.receipts.length = block.transactions.length → validateBlockCheapBounds block = .ok ())) := by
  have hmirrors : Mirrors (canonicalBlockSize block) (utf8Bytes block.json).length := canonicalBlockSize_mirrors htxs
  have hraw : rawBlock block ≤ (utf8Bytes block.json).length := rawBlock_le block
  refine ⟨fun size hsize => ?_, hmirrors.total, hraw, fun hlimit => ?_⟩
  · rcases hmirrors.sound size hsize with heq | ⟨hover, hle⟩
    · exact ⟨by rw [heq], fun _ => heq⟩
    · exact ⟨⟨fun _ => hover.trans_le hle, fun _ => hover⟩, fun hlimit => by omega⟩
  · have hrawTxs : ∀ tx ∈ block.transactions, rawTransaction tx ≤ maxTransactionBytes := by
      intro tx hmem
      have hle : rawTransaction tx + 2 ≤ (utf8Bytes tx.json).length := rawTransaction_le tx
      have := htxs tx hmem
      omega
    have hcheck := validateBlockRawContentSize_ok.mpr ⟨hraw.trans hlimit, hrawTxs⟩
    exact ⟨hcheck, fun hmatch => validateBlockCheapBounds_ok.mpr ⟨hcounts, hmatch, hcheck⟩⟩

/-- A block with one transfer. -/
theorem canonicalBlockSize_decides_transfer :
    let tx : Transaction := { chainID := "lab", type := .transfer, fromAddress := "0x01", toAddress := "0x02", value := 7 }
    let block : Block := { header := { chainID := "lab", height := 1 }, transactions := [tx], receipts := [{}] }
    canonicalBlockSize block = .ok (utf8Bytes block.json).length ∧ validateBlockCheapBounds block = .ok () := by
  intro tx block
  have htx : (utf8Bytes tx.json).length ≤ maxTransactionBytes := by decide +kernel
  have hsmall : (utf8Bytes block.json).length ≤ maxBlockBytes := by decide +kernel
  have hfits : (utf8Bytes block.json).length < 2 ^ 64 := hsmall.trans_lt (by decide)
  obtain ⟨hsound, htotal, -, hcheap⟩ := canonicalBlockSize_decides block
    ⟨by decide, by decide, fun _ h => (nomatch h)⟩ (fun t ht => List.mem_singleton.mp ht ▸ htx)
  obtain ⟨size, hsize⟩ := htotal hfits
  exact ⟨((hsound size hsize).2 hsmall) ▸ hsize, (hcheap hsmall).2 rfl⟩

end ChainLab.Node
