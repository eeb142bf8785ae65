import ChainLab.Consensus.Certificates
import ChainLab.Node.Sizes

/-! Room for finality: a certificate that consensus accepts fits into the bytes that an uncertified block
leaves free. -/

namespace ChainLab.Node

open ChainLab.Lib ChainLab.Types ChainLab.Crypto ChainLab.Consensus

/-! ### Texts that are written as they are -/

/-- A class of ASCII runes is written as it is if each of the 128 is. -/
private theorem verbatim_of_ascii {p : Char → Bool} (hascii : ∀ c, p c = true → c.toNat < 128)
    (hall : ∀ n : Fin 128, p (Char.ofNat n) = true → jsonRune (Char.ofNat n) = [Char.ofNat n]) {c : Char}
    (h : p c = true) : VerbatimRune c := by
  have hrune := hall ⟨c.toNat, hascii c h⟩
  rw [Char.ofNat_toNat] at hrune
  exact ⟨hrune h, hascii c h⟩

private theorem toNat_le_of_le {c d : Char} (h : c ≤ d) : c.toNat ≤ d.toNat := h

private theorem verbatim_of_chainIDRune {c : Char}
    (h : (c.isLower || c.isUpper || c.isDigit || c = '-' || c = '_' || c = '.') = true) : VerbatimRune c := by
  refine @verbatim_of_ascii (fun c => c.isLower || c.isUpper || c.isDigit || c = '-' || c = '_' || c = '.')
    (fun c h => ?_) (by decide +kernel) c h
  simp only [Bool.or_eq_true, decide_eq_true_eq, Char.isLower, Char.isUpper, Char.isDigit, Bool.and_eq_true,
    ge_iff_le, UInt32.le_iff_toNat_le] at h
  change (((((97 ≤ c.toNat ∧ c.toNat ≤ 122) ∨ (65 ≤ c.toNat ∧ c.toNat ≤ 90)) ∨ (48 ≤ c.toNat ∧ c.toNat ≤ 57)) ∨
    c = '-') ∨ c = '_') ∨ c = '.' at h
  rcases h with (((h | h) | rfl) | rfl) | rfl
  · omega
  · omega
  · decide
  · decide
  · decide

private theorem verbatim_of_hexDigit {c : Char} (h : (hexDigitValue c).isSome = true) : VerbatimRune c := by
  refine @verbatim_of_ascii (fun c => (hexDigitValue c).isSome) (fun c h => ?_) (by decide +kernel) c h
  unfold hexDigitValue at h
  have h9 : ('9').toNat = 57 := rfl
  have hf : ('f').toNat = 102 := rfl
  have hF : ('F').toNat = 70 := rfl
  split_ifs at h with hdigit hlower hupper
  · have := toNat_le_of_le hdigit.2
    omega
  · have := toNat_le_of_le hlower.2
    omega
  · have := toNat_le_of_le hupper.2
    omega
  · cases h

private theorem hexDigit_of_hexDecode {text : List Char} {raw : List UInt8} (h : hexDecode text = some raw) :
    ∀ c ∈ text, (hexDigitValue c).isSome = true := by
  fun_induction hexDecode text generalizing raw with
  | case1 => exact fun c hc => (nomatch hc)
  | case2 => cases h
  | case3 hi lo rest ih =>
    simp only [Option.pure_def, Option.bind_eq_bind, Option.bind_eq_some_iff, Option.some.injEq] at h
    obtain ⟨high, hhigh, low, hlow, decoded, hrest, -⟩ := h
    intro c hc
    rcases List.mem_cons.mp hc with rfl | hc
    · rw [hhigh, Option.isSome_some]
    · rcases List.mem_cons.mp hc with rfl | hc
      · rw [hlow, Option.isSome_some]
      · exact ih hrest c hc

theorem jsonSize_hexText {s : String} {raw : List UInt8} (hprefixed : hasPrefix s "0x" = true)
    (hdecoded : hexDecode ((runes s).drop 2) = some raw) : jsonSize (jsonString s) = len s + 2 := by
  unfold hasPrefix at hprefixed
  simp only [runes_eq] at hdecoded hprefixed
  obtain ⟨rest, hrest⟩ := List.isPrefixOf_iff_prefix.mp hprefixed
  have htext : s.toList = '0' :: 'x' :: rest := hrest.symm
  rw [htext] at hdecoded
  apply jsonSize_jsonString_of_verbatim
  rw [htext]
  intro c hc
  rcases List.mem_cons.mp hc with rfl | hc
  · exact verbatim_of_hexDigit rfl
  · rcases List.mem_cons.mp hc with rfl | hc
    · exact ⟨by decide, by decide⟩
    · exact verbatim_of_hexDigit (hexDigit_of_hexDecode hdecoded c hc)

theorem jsonSize_chainID {value : String} (h : validateChainID value = .ok ()) :
    jsonSize (jsonString value) ≤ maxChainIDBytes + 2 := by
  simp only [validateChainID, runes_eq, bind_ok, refuseIf_ok, exists_const, not_or, not_lt, Bool.not_eq_true',
    Bool.not_eq_false, List.all_eq_true] at h
  obtain ⟨⟨-, hlength⟩, hrunes⟩ := h
  rw [jsonSize_jsonString_of_verbatim fun c hc => verbatim_of_chainIDRune (hrunes c hc)]
  omega

theorem jsonSize_hash {field value : String} (h : validateCanonicalHash field value = .ok ()) :
    jsonSize (jsonString value) = 68 := by
  simp only [validateCanonicalHash, bind_ok, refuseIf_ok, exists_const, not_or, not_not, Bool.not_eq_true',
    Bool.not_eq_false] at h
  obtain ⟨⟨hlength, hprefixed, -⟩, hdecoded⟩ := h
  obtain ⟨raw, hraw⟩ := Option.ne_none_iff_exists'.mp hdecoded
  rw [jsonSize_hexText hprefixed hraw, hlength]

theorem jsonSize_signature {field value : String} (h : validateCanonicalSignature field value = .ok ()) :
    jsonSize (jsonString value) = 134 := by
  simp only [validateCanonicalSignature, bind_ok, refuseIf_ok, require_ok, exists_const, not_or, not_not,
    Bool.not_eq_true', Bool.not_eq_false] at h
  obtain ⟨⟨hlength, hprefixed, -⟩, raw, hraw, -⟩ := h
  rw [jsonSize_hexText hprefixed hraw, hlength]

theorem jsonSize_address {address : String} (h : IsCanonicalAddress address) :
    jsonSize (jsonString address) = 44 := by
  have hlower := h.lower
  simp only [IsCanonicalAddress, normalizeAddress, hlower] at h
  split_ifs at h with hshape
  simp only [not_or, not_not, Bool.not_eq_true', Bool.not_eq_false] at hshape
  split at h
  · cases h
  · next raw hraw => rw [jsonSize_hexText hshape.2 hraw, hshape.1]

theorem jsonSize_jsonUint_le (v : UInt64) : jsonSize (jsonUint v) ≤ 20 := by
  have hascii : ∀ c ∈ Nat.toDigits 10 v.toNat, c.toNat < 128 := by
    intro c hc
    have hdigit := Nat.isDigit_of_mem_toDigits (by decide) (by decide) hc
    simp only [Char.isDigit, Bool.and_eq_true, decide_eq_true_eq, ge_iff_le, UInt32.le_iff_toNat_le] at hdigit
    change 48 ≤ c.toNat ∧ c.toNat ≤ 57 at hdigit
    omega
  have hlength : (Nat.toDigits 10 v.toNat).length ≤ 20 :=
    Nat.toDigits_length 10 v.toNat 20 (by decide) (v.toNat_lt.trans (by decide))
  rw [jsonSize, jsonUint, length_utf8Bytes_of_ascii hascii]
  exact hlength

/-! ### Accepted certificates -/

theorem card_enroll_le (engine : POA) (validator : String) :
    (engine.enroll validator).validatorSet.card ≤ engine.validatorSet.card + 1 := by
  unfold POA.enroll
  split_ifs with hcanonical hmember
  · exact Nat.le_succ _
  · exact Finset.card_insert_le _ _
  · exact Nat.le_succ _

theorem card_newPOA_le (validators : List String) : (newPOA validators).validatorSet.card ≤ validators.length := by
  have hfold : ∀ (rest : List String) (engine : POA),
      (rest.foldl POA.enroll engine).validatorSet.card ≤ engine.validatorSet.card + rest.length := by
    intro rest
    induction rest with
    | nil => exact fun _ => le_rfl
    | cons validator rest ih =>
      intro engine
      have hround := card_enroll_le engine validator
      have hrest := ih (engine.enroll validator)
      rw [List.foldl_cons, List.length_cons]
      omega
  have hempty : ∀ engine : POA, engine.validatorSet = ∅ → (validators.foldl POA.enroll engine).validatorSet.card ≤
      validators.length := by
    intro engine hengine
    have hle := hfold validators engine
    rwa [hengine, Finset.card_empty, Nat.zero_add] at hle
  exact hempty _ rfl

private theorem ok_of_isOk {check : Result Unit} (h : check.isOk = true) : check = .ok () := by
  cases check with
  | error => cases h
  | ok => rfl

/-- The bytes that a vote signs. -/
theorem length_finalityVoteSigningBytes_le {chainID blockHash : String} (hchain : validateChainID chainID = .ok ())
    (height : UInt64) (hhash : jsonSize (jsonString blockHash) = 68) :
    (finalityVoteSigningBytes chainID height blockHash).length ≤ 255 := by
  have hid := jsonSize_chainID hchain
  have hmax : maxChainIDBytes = 128 := rfl
  have hheight := jsonSize_jsonUint_le height
  have hlabels : jsonSize (jsonString "chain_id") = 10 ∧ jsonSize (jsonString "height") = 8 ∧
      jsonSize (jsonString "block_hash") = 12 := by decide
  change jsonSize (jsonObject _) ≤ 255
  rw [jsonSize_jsonObject_cons, fieldSize_jsonField]
  simp only [List.map_cons, List.map_nil, List.sum_cons, List.sum_nil, laterFieldSize_jsonField]
  omega

section Certificates

variable [Primitives] {p : POA} {block : Block} {certificate : FinalityCertificate}

/-- No more than one vote a validator. -/
theorem length_signatures_le (h : Accepted p block certificate) :
    certificate.signatures.items.length ≤ p.validatorSet.card := by
  have hcard := Finset.card_le_card h.signers_subset
  rw [h.card_signers, signerList, List.length_map] at hcard
  exact hcard

/-- The bytes of an accepted vote. -/
theorem jsonSize_vote_le (hchain : validateChainID block.header.chainID = .ok ()) {vote : FinalitySignature}
    (h : verifyFinalityVote block vote = true) : jsonSize vote.json ≤ 459 := by
  obtain ⟨hchainID, -, -, hhash, haddress, hsignature, -⟩ := verifyFinalityVote_iff.mp h
  have hid := jsonSize_chainID hchain
  have hmax : maxChainIDBytes = 128 := rfl
  have hheight := jsonSize_jsonUint_le vote.height
  have hblock := jsonSize_hash (ok_of_isOk hhash)
  have hvalidator := jsonSize_address haddress
  have hsigned := jsonSize_signature (ok_of_isOk hsignature)
  have hlabels : jsonSize (jsonString "chain_id") = 10 ∧ jsonSize (jsonString "height") = 8 ∧
      jsonSize (jsonString "block_hash") = 12 ∧ jsonSize (jsonString "validator") = 11 ∧
      jsonSize (jsonString "signature") = 11 := by decide
  rw [FinalitySignature.json, jsonSize_jsonObject_cons, fieldSize_jsonField, hchainID]
  simp only [List.map_cons, List.map_nil, List.sum_cons, List.sum_nil, laterFieldSize_jsonField]
  omega

/-- The bytes of an accepted certificate. -/
theorem jsonSize_certificate_le (hchain : validateChainID block.header.chainID = .ok ())
    (h : Accepted p block certificate) :
    jsonSize certificate.json ≤ 460 * certificate.signatures.items.length + 275 := by
  have hvotes : ∀ votes : List FinalitySignature, (∀ vote ∈ votes, jsonSize vote.json ≤ 459) →
      ((votes.map FinalitySignature.json).map jsonSize).sum ≤ 459 * votes.length := by
    intro votes hsmall
    induction votes with
    | nil => exact le_rfl
    | cons vote rest ih =>
      have hvote := hsmall vote List.mem_cons_self
      have hrest := ih fun vote hmem => hsmall vote (List.mem_cons_of_mem _ hmem)
      simp only [List.map_cons, List.sum_cons, List.length_cons] at hrest ⊢
      omega
  have hsignatures : jsonSize (certificate.signatures.json FinalitySignature.json) ≤
      460 * certificate.signatures.items.length + 4 := by
    have hendorsed := h.endorsed
    cases hcase : certificate.signatures with
    | none => decide
    | some votes =>
      rw [hcase] at hendorsed
      have hsum := hvotes votes fun vote hmem => jsonSize_vote_le hchain (hendorsed vote hmem).verified
      rw [GoSlice.json, Option.elim_some, jsonSize_jsonArray, List.length_map]
      change _ ≤ 460 * votes.length + 4
      omega
  -- a quorum has a member, whose vote names the same block
  obtain ⟨validator, hvalidator⟩ := h.signers_nonempty
  obtain ⟨vote, hvote, -⟩ := List.mem_map.mp (List.mem_toFinset.mp hvalidator)
  obtain ⟨-, -, hblockHash, hcanonical, -⟩ := verifyFinalityVote_iff.mp (h.endorsed vote hvote).verified
  have hhash := jsonSize_hash (ok_of_isOk hcanonical)
  rw [hblockHash, ← h.blockHash] at hhash
  have hpayload := length_finalityVoteSigningBytes_le (h.chainID ▸ hchain) certificate.height hhash
  have hopening : len ",\"signatures\":" = 14 := by decide
  rw [jsonSize_certificate, hopening]
  omega

end Certificates

/-! ### Blocks -/

/-- A loop over an array that is not given up has measured every item. -/
theorem addArraySize_measures {α : Type} {size : Nat → α → Result Nat} : ∀ (items : List α) (index total : Nat)
    (outcome : ArraySize), addArraySize size index items total = .ok outcome →
      (∃ t, outcome = .exceeded t ∧ maxBlockBytes < t) ∨ ∀ item ∈ items, ∃ i n, size i item = .ok n := by
  intro items
  induction items with
  | nil => exact fun _ _ _ _ => .inr fun item hmem => (nomatch hmem)
  | cons item rest ih =>
    intro index total outcome h
    rw [addArraySize] at h
    obtain ⟨start, -, h⟩ := bind_ok.mp h
    obtain ⟨n, hn, h⟩ := bind_ok.mp h
    obtain ⟨sum, -, h⟩ := bind_ok.mp h
    by_cases hlimit : sum > maxBlockBytes
    · rw [if_pos hlimit] at h
      exact .inl ⟨sum, (Except.ok.inj h).symm, hlimit⟩
    · rw [if_neg hlimit] at h
      refine (ih (index + 1) sum outcome h).imp_right fun hrest other hmem => ?_
      rcases List.mem_cons.mp hmem with rfl | hmem
      · exact ⟨index, n, hn⟩
      · exact hrest other hmem

/-- The transactions of a block that is measured within the limit are within theirs. -/
theorem jsonSize_transaction_le {block : Block} {size : Nat} (h : canonicalBlockSize block = .ok size)
    (hlimit : size ≤ maxBlockBytes) : ∀ tx ∈ block.transactions, jsonSize tx.json ≤ maxTransactionBytes := by
  obtain ⟨total, -, h⟩ := bind_ok.mp h
  unfold addArrayField at h
  by_cases hempty : block.transactions = []
  · rw [hempty]
    exact fun tx hmem => (nomatch hmem)
  rw [if_neg hempty] at h
  obtain ⟨start, -, h⟩ := bind_ok.mp h
  obtain ⟨outcome, houtcome, h⟩ := bind_ok.mp h
  rcases addArraySize_measures _ _ _ _ houtcome with ⟨t, rfl, hover⟩ | hmeasured
  · cases h
    omega
  · intro tx hmem
    obtain ⟨index, n, hn⟩ := hmeasured tx hmem
    obtain hsize := mapError_ok.mp hn
    simp only [canonicalTransactionSize, bind_ok, refuseIf_ok, exists_const, not_lt, pure_eq_ok, Except.ok.injEq]
      at hsize
    obtain ⟨-, -, -, hbound, -⟩ := hsize
    exact hbound

/-- Whatever certificate consensus accepts for a block of acceptable size, the block with it is of acceptable
size. -/
theorem validateBlockSize_certified [Primitives] (validators : List String) (hmembers : validators.length ≤ maxValidators)
    (block : Block) (huncertified : block.finalityCertificate = none)
    (hchain : validateChainID block.header.chainID = .ok ()) (hsize : validateBlockSize block = .ok ())
    (certificate : FinalityCertificate)
    (hcertificate : (newPOA validators).validateFinalityCertificate block certificate = .ok ()) :
    validateBlockSize { block with finalityCertificate := some certificate } = .ok () := by
  have haccepted := validateFinalityCertificate_ok.mp hcertificate
  have hvotes : certificate.signatures.items.length ≤ 4096 :=
    (length_signatures_le haccepted).trans ((card_newPOA_le validators).trans hmembers)
  have hcertificateSize := jsonSize_certificate_le hchain haccepted
  have hmaxCertificate : maxFinalityCertificateBytes = 4194304 := rfl
  have hmaxBase : maxUncertifiedBlockBytes = 12582912 := rfl
  have hmaxBlock : maxBlockBytes = 16777216 := rfl
  have hbare : { block with finalityCertificate := none } = block := by
    rw [← huncertified]
  -- what was checked of the block itself
  simp only [validateBlockSize, bind_ok, refuseIf_ok, exists_const, not_lt, hbare] at hsize
  obtain ⟨_, hcheap, base, hbase, hbaseLimit, -⟩ := hsize
  obtain ⟨hcounts, hmatch, hraw⟩ := validateBlockCheapBounds_ok.mp hcheap
  have htxs := jsonSize_transaction_le hbase (by omega)
  have hlength : jsonSize block.json = base := by
    rcases (canonicalBlockSize_mirrors htxs).sound base hbase with heq | ⟨hover, -⟩
    · exact heq.symm
    · omega
  -- the block with the certificate
  have hlabel : len ",\"finality_certificate\":" = 24 := by decide
  have hattached : jsonSize ({ block with finalityCertificate := some certificate } : Block).json =
      base + 24 + jsonSize certificate.json := by
    have hblock := jsonSize_block block
    rw [huncertified, Option.elim_none, hlength] at hblock
    rw [jsonSize_block, Option.elim_some, hlabel]
    dsimp only
    omega
  have hattachedLimit : jsonSize ({ block with finalityCertificate := some certificate } : Block).json ≤
      maxBlockBytes := by omega
  have hattachedRaw : validateBlockRawContentSize { block with finalityCertificate := some certificate } = .ok () :=
    validateBlockRawContentSize_ok.mpr
      ⟨(rawBlock_le _).trans hattachedLimit, (validateBlockRawContentSize_ok.mp hraw).2⟩
  simp only [validateBlockSize, bind_ok, refuseIf_ok, exists_const, not_lt, hbare]
  refine ⟨(), validateBlockCheapBounds_ok.mpr ⟨⟨hcounts.transactions, hcounts.receipts, ?_⟩, hmatch, hattachedRaw⟩,
    base, hbase, hbaseLimit, _, (canonicalFinalityCertificateSize_mirrors certificate).exact (by omega), by omega,
    _, (@canonicalBlockSize_mirrors { block with finalityCertificate := some certificate } htxs).exact hattachedLimit,
    hattachedLimit⟩
  intro attached hattached
  cases hattached
  exact hvotes

/-- The certificate of the only validator. -/
theorem validateBlockSize_certified_alone : letI := constantPrimitives
    let block : Block := { header := { chainID := "lab", height := 1 } }
    let certificate : FinalityCertificate :=
      ⟨"lab", 1, block.hash, some [⟨"lab", 1, block.hash, constantKeyAddress, constantSignature⟩]⟩
    validateBlockSize { block with finalityCertificate := some certificate } = .ok () := by
  let _ := constantPrimitives
  intro block certificate
  exact validateBlockSize_certified [constantKeyAddress] (by decide) block rfl (by decide +kernel) (by decide +kernel)
    certificate (by decide +kernel)

end ChainLab.Node
