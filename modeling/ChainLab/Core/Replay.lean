import ChainLab.Core.Authorization
import ChainLab.Types.Raw

/-! Type-2 envelopes across chains: which chain ids keep their transactions apart. -/

namespace ChainLab.Core

open ChainLab.Lib ChainLab.Types ChainLab.Crypto

/-! ### RLP strings and lists are self-delimiting -/

section Rlp

private theorem map_toNat_digits (n : Nat) :
    ((Nat.digits 256 n).map UInt8.ofNat).map UInt8.toNat = Nat.digits 256 n := by
  rw [List.map_map]
  conv_rhs => rw [← List.map_id (Nat.digits 256 n)]
  refine List.map_congr_left fun d hd => ?_
  have hlt : d < 256 := Nat.digits_lt_base (by decide) hd
  rw [Function.comp_apply, UInt8.toNat_ofNat', id_eq, Nat.mod_eq_of_lt hlt]

theorem bigEndian_injective : Function.Injective bigEndian := by
  intro n m h
  have hbytes := congrArg (List.map UInt8.toNat) (List.reverse_injective h)
  rw [map_toNat_digits, map_toNat_digits] at hbytes
  rw [← Nat.ofDigits_digits 256 n, hbytes, Nat.ofDigits_digits]

theorem length_bigEndian_mono {n m : Nat} (h : n ≤ m) : (bigEndian n).length ≤ (bigEndian m).length := by
  unfold bigEndian
  rw [List.length_reverse, List.length_map, List.length_reverse, List.length_map]
  exact Nat.le_length_digits_le 256 n m h

theorem length_bigEndian_le (value : UInt64) : (bigEndian value.toNat).length ≤ 8 := by
  unfold bigEndian
  rw [List.length_reverse, List.length_map, Nat.digits_length_le_iff (by omega)]
  exact value.toNat_lt

/-- The first byte of a short string: the byte itself, or its length above `0x80`. -/
private theorem rlpEncodeBytes_cases {raw : List UInt8} (hraw : raw.length ≤ 55) :
    (∃ b : UInt8, b.toNat < 128 ∧ raw = [b] ∧ rlpEncodeBytes raw = [b]) ∨
      ∃ b : UInt8, b.toNat = 128 + raw.length ∧ rlpEncodeBytes raw = b :: raw := by
  unfold rlpEncodeBytes
  by_cases hsingle : raw.length = 1 ∧ raw.headD 0 < 0x80
  · rw [if_pos hsingle]
    obtain ⟨b, rfl⟩ := List.length_eq_one_iff.mp hsingle.1
    exact .inl ⟨b, UInt8.lt_iff_toNat_lt.mp hsingle.2, rfl, rfl⟩
  · rw [if_neg hsingle]
    unfold rlpEncodeLength
    rw [if_pos hraw]
    refine .inr ⟨_, ?_, rfl⟩
    rw [UInt8.toNat_add, UInt8.toNat_ofNat']
    change (128 + raw.length % 256) % 256 = 128 + raw.length
    omega

/-- The first byte of a short string tells where it ends. -/
theorem rlpEncodeBytes_append_inj {raw other rest rest' : List UInt8} (hraw : raw.length ≤ 55)
    (hother : other.length ≤ 55) (h : rlpEncodeBytes raw ++ rest = rlpEncodeBytes other ++ rest') : raw = other := by
  obtain ⟨b, hb, hsame, hencoded⟩ | ⟨b, hb, hencoded⟩ := rlpEncodeBytes_cases hraw <;>
    obtain ⟨b', hb', hsame', hencoded'⟩ | ⟨b', hb', hencoded'⟩ := rlpEncodeBytes_cases hother <;>
    rw [hencoded, hencoded', List.cons_append, List.cons_append] at h <;>
    obtain ⟨rfl, htail⟩ := List.cons.inj h
  · rw [hsame, hsame']
  · omega
  · omega
  · exact (List.append_inj htail (by omega)).1

private theorem length_rlpEncodeLength_mono {offset : UInt8} {n m : Nat} (h : n ≤ m) :
    (rlpEncodeLength offset n).length ≤ (rlpEncodeLength offset m).length := by
  have hmono := length_bigEndian_mono h
  unfold rlpEncodeLength
  split
  · split <;> simp
  · rw [if_neg (by omega)]
    simpa using hmono

/-- The length in front of a list grows with the list, so lists of one encoding have one length. -/
theorem rlpEncodeList_inj {items others : List (List UInt8)} (h : rlpEncodeList items = rlpEncodeList others) :
    items.flatten = others.flatten := by
  have hlength : (items.map List.length).sum = (others.map List.length).sum := by
    have htotal := congrArg List.length h
    unfold rlpEncodeList at htotal
    rw [List.length_append, List.length_append, List.length_flatten, List.length_flatten] at htotal
    rcases Nat.lt_trichotomy (items.map List.length).sum (others.map List.length).sum with hlt | heq | hgt
    · have hmono := @length_rlpEncodeLength_mono 0xc0 _ _ hlt.le
      omega
    · exact heq
    · have hmono := @length_rlpEncodeLength_mono 0xc0 _ _ hgt.le
      omega
  unfold rlpEncodeList at h
  rw [hlength] at h
  exact List.append_cancel_left h

end Rlp

/-! ### Chain ids -/

section ChainIDs

variable {chainID other : String} {number : UInt64}

/-- A chain id other than the local one is the hexadecimal text of its number. -/
theorem ethereumChainNumber_text (h : ethereumChainNumber chainID = .ok number) (hlocal : chainID ≠ "chainlab-local") :
    chainID.toList = '0' :: 'x' :: Nat.toDigits 16 number.toNat := by
  unfold ethereumChainNumber at h
  simp only [if_neg hlocal, runes_eq, bind_ok, refuseIf_ok, require_ok, exists_const, pure_eq_ok, Except.ok.injEq,
    not_or, not_not] at h
  obtain ⟨-, values, -, ⟨hfits, -, htext⟩, rfl⟩ := h
  rw [UInt64.toNat_ofNat_of_lt' (Nat.not_le.mp hfits)]
  exact htext.symm

/-- Two chain ids of one number: the local chain and its number's own text. -/
def ShareNumber (chainID other : String) : Prop :=
  chainID = "chainlab-local" ∧ other = "0x7a69" ∨ chainID = "0x7a69" ∧ other = "chainlab-local"

theorem text_of_local_number (h : ethereumChainNumber chainID = .ok 31337) (hlocal : chainID ≠ "chainlab-local") :
    chainID = "0x7a69" := by
  apply String.toList_inj.mp
  rw [ethereumChainNumber_text h hlocal]
  decide

theorem shareNumber_of_number_eq (h : ethereumChainNumber chainID = .ok number)
    (hother : ethereumChainNumber other = .ok number) (hne : chainID ≠ other) : ShareNumber chainID other := by
  have hlocalNumber : ethereumChainNumber "chainlab-local" = .ok 31337 := rfl
  by_cases hlocal : chainID = "chainlab-local"
  · rw [hlocal, hlocalNumber] at h
    obtain rfl := Except.ok.inj h
    exact .inl ⟨hlocal, text_of_local_number hother fun heq => hne (hlocal.trans heq.symm)⟩
  · by_cases hlocal' : other = "chainlab-local"
    · rw [hlocal', hlocalNumber] at hother
      obtain rfl := Except.ok.inj hother
      exact .inr ⟨text_of_local_number h hlocal, hlocal'⟩
    · refine (hne (String.toList_inj.mp ?_)).elim
      rw [ethereumChainNumber_text h hlocal, ethereumChainNumber_text hother hlocal']

end ChainIDs

/-! ### Transactions of two chains -/

section Replay

variable [Primitives] {chainID other : String}

/-- No payload is signed on both chains, and no envelope is read and authorized on both. -/
def ReplayProtected (chainID other : String) : Prop :=
  (∀ tx tx' payload payload', tx.chainID = chainID → tx'.chainID = other →
    ethereumType2SigningPayload tx = .ok payload → ethereumType2SigningPayload tx' = .ok payload' →
      payload ≠ payload') ∧
  ∀ encoded tx tx', ¬(decodeEthereumType2RawTransaction encoded chainID = .ok tx ∧
    validateEthereumType2Authorization tx = .ok () ∧ decodeEthereumType2RawTransaction encoded other = .ok tx' ∧
      validateEthereumType2Authorization tx' = .ok ())

omit [Primitives] in
/-- A signing payload names the number of its chain. -/
theorem chainNumber_of_payload {tx tx' : Transaction} {payload : List UInt8}
    (h : ethereumType2SigningPayload tx = .ok payload) (h' : ethereumType2SigningPayload tx' = .ok payload) :
    ethereumChainNumber tx.chainID = ethereumChainNumber tx'.chainID := by
  simp only [ethereumType2SigningPayload, bind_ok, pure_eq_ok, Except.ok.injEq] at h h'
  obtain ⟨dest, -, number, hnumber, rfl⟩ := h
  obtain ⟨dest', -, number', hnumber', hpayload⟩ := h'
  have hfields := rlpEncodeList_inj (List.cons.inj hpayload).2
  simp only [type2Fields, List.flatten_cons] at hfields
  have hbytes := rlpEncodeBytes_append_inj ((length_bigEndian_le number').trans (by decide))
    ((length_bigEndian_le number).trans (by decide)) hfields
  rw [hnumber, hnumber', UInt64.toNat_inj.mp (bigEndian_injective hbytes)]

omit [Primitives] in
/-- The first field of an envelope is the number of the chain it is read on. -/
theorem chainNumber_of_fields {fields : List RlpItem} {tx : Transaction} (hne : chainID ≠ "")
    (h : type2Transaction chainID fields = .ok tx) :
    ∃ chain rest number, fields = chain :: rest ∧ rlpUint64 chain "chain id" = .ok number ∧
      ethereumChainNumber chainID = .ok number := by
  unfold type2Transaction at h
  split at h
  · rename_i chain _ _ _ _ _ _ _ _ _ _ _
    simp only [bind_ok, refuseIf_ok, exists_const] at h
    obtain ⟨number, hnumber, -, named, hnamed, -⟩ := h
    simp only [type2ChainID, if_neg hne, bind_ok, refuseIf_ok, exists_const, not_not] at hnamed
    obtain ⟨expected, hexpected, rfl, -⟩ := hnamed
    exact ⟨chain, _, expected, rfl, hnumber, hexpected⟩
  · cases h

/-- An envelope is read on chains of one number only. -/
theorem chainNumber_of_decode {encoded : List UInt8} {tx tx' : Transaction} (hne : chainID ≠ "") (hne' : other ≠ "")
    (h : decodeEthereumType2RawTransaction encoded chainID = .ok tx)
    (h' : decodeEthereumType2RawTransaction encoded other = .ok tx') :
    ethereumChainNumber chainID = ethereumChainNumber other := by
  simp only [decodeEthereumType2RawTransaction, bind_ok, refuseIf_ok, exists_const] at h h'
  obtain ⟨⟨item, rest⟩, hitem, -, fields, hfields, -⟩ := h
  obtain ⟨⟨item', rest'⟩, hitem', -, fields', hfields', -⟩ := h'
  obtain ⟨rfl, -⟩ := Prod.mk.inj (Except.ok.inj (hitem.symm.trans hitem'))
  obtain ⟨chain, _, number, hchain, hnumber, heq⟩ := chainNumber_of_fields hne hfields
  obtain ⟨chain', _, number', hchain', hnumber', heq'⟩ := chainNumber_of_fields hne' hfields'
  rw [hchain] at hchain'
  obtain ⟨rfl, -⟩ := List.cons.inj hchain'
  rw [heq, heq', Except.ok.inj (hnumber.symm.trans hnumber')]

omit [Primitives] in
theorem validateChainID_ne_empty (h : validateChainID chainID = .ok ()) : chainID ≠ "" := by
  simp only [validateChainID, bind_ok, refuseIf_ok, exists_const, not_or] at h
  exact h.1.1

omit [Primitives] in
/-- The same transfer on two chains of one number has one payload. -/
theorem payload_eq_of_number {number : UInt64} (h : ethereumChainNumber chainID = .ok number)
    (h' : ethereumChainNumber other = .ok number) {tx : Transaction} {dest : List UInt8}
    (hdest : ethereumAddressBytes tx.toAddress = .ok dest) :
    ∃ payload, ethereumType2SigningPayload { tx with chainID } = .ok payload ∧
      ethereumType2SigningPayload { tx with chainID := other } = .ok payload := by
  refine ⟨2 :: rlpEncodeList (type2Fields number tx dest), ?_, ?_⟩
  · simp only [ethereumType2SigningPayload, bind_ok, pure_eq_ok, Except.ok.injEq]
    exact ⟨dest, hdest, number, h, rfl⟩
  · simp only [ethereumType2SigningPayload, bind_ok, pure_eq_ok, Except.ok.injEq]
    exact ⟨dest, hdest, number, h', rfl⟩

omit [Primitives] in
theorem number_eq_of_shareNumber {number number' : UInt64} (h : ShareNumber chainID other)
    (hnumber : ethereumChainNumber chainID = .ok number) (hnumber' : ethereumChainNumber other = .ok number') :
    number = number' := by
  have hlocal : ethereumChainNumber "chainlab-local" = .ok 31337 := rfl
  have htext : ethereumChainNumber "0x7a69" = .ok 31337 := by decide +kernel
  obtain ⟨rfl, rfl⟩ | ⟨rfl, rfl⟩ := h
  · exact (Except.ok.inj (hlocal.symm.trans hnumber)).symm.trans (Except.ok.inj (htext.symm.trans hnumber'))
  · exact (Except.ok.inj (htext.symm.trans hnumber)).symm.trans (Except.ok.inj (hlocal.symm.trans hnumber'))

/-- A transfer of nothing. -/
def plainTransfer : Transaction :=
  { chainID := "", type := .transfer, fromAddress := "", toAddress := "0x0202020202020202020202020202020202020202" }

/-- Two accepted chain ids keep their type-2 transactions apart exactly when they are not the local chain and the
text of the local chain's number. -/
theorem replayProtected_iff (hchain : validateChainID chainID = .ok ()) (hother : validateChainID other = .ok ())
    {number number' : UInt64} (hnumber : ethereumChainNumber chainID = .ok number)
    (hnumber' : ethereumChainNumber other = .ok number') (hne : chainID ≠ other) :
    ReplayProtected chainID other ↔ ¬ShareNumber chainID other := by
  constructor
  · rintro ⟨hpayloads, -⟩ hshare
    obtain rfl := number_eq_of_shareNumber hshare hnumber hnumber'
    obtain ⟨dest, hdest⟩ : ∃ dest, ethereumAddressBytes plainTransfer.toAddress = .ok dest :=
      ⟨List.replicate 20 2, by decide +kernel⟩
    obtain ⟨payload, hpayload, hpayload'⟩ := payload_eq_of_number hnumber hnumber' hdest
    exact hpayloads _ _ payload payload rfl rfl hpayload hpayload' rfl
  · intro hshare
    have hnumbers : ethereumChainNumber chainID ≠ ethereumChainNumber other := fun heq =>
      hshare (shareNumber_of_number_eq hnumber (heq.symm.trans hnumber) hne)
    constructor
    · rintro tx tx' payload payload' rfl rfl hpayload hpayload' rfl
      exact hnumbers (chainNumber_of_payload hpayload hpayload')
    · rintro encoded tx tx' ⟨hdecode, -, hdecode', -⟩
      exact hnumbers (chainNumber_of_decode (validateChainID_ne_empty hchain) (validateChainID_ne_empty hother)
        hdecode hdecode')

omit [Primitives] in
theorem replayProtected_first_two : letI := constantPrimitives
    ReplayProtected "0x1" "0x2" ↔ ¬ShareNumber "0x1" "0x2" := by
  let _ := constantPrimitives
  have hfirst : ethereumChainNumber "0x1" = .ok 1 := by decide +kernel
  have hsecond : ethereumChainNumber "0x2" = .ok 2 := by decide +kernel
  exact replayProtected_iff (by decide +kernel) (by decide +kernel) hfirst hsecond (by decide)

/-- An envelope for chain 31337: one unit of fee, 21000 units of gas, seven units for `0x0202...`, and a signature
whose two values are one. -/
def localEnvelope : List UInt8 :=
  [0x02, 0xe4, 0x82, 0x7a, 0x69, 0x80, 0x80, 0x01, 0x82, 0x52, 0x08, 0x94] ++ List.replicate 20 0x02 ++
    [0x07, 0x80, 0xc0, 0x80, 0x01, 0x01]

/-- What a node of a chain makes of an envelope. -/
def acceptsEnvelope (chainID : String) (encoded : List UInt8) : Bool :=
  match decodeEthereumType2RawTransaction encoded chainID with
  | .ok tx => (validateEthereumType2Authorization tx).isOk
  | .error _ => false

omit [Primitives] in
/-- The same envelope is read and authorized on both chains. -/
theorem localEnvelope_replays : letI := constantPrimitives
    validateChainID "chainlab-local" = .ok () ∧ validateChainID "0x7a69" = .ok () ∧
      acceptsEnvelope "chainlab-local" localEnvelope = true ∧ acceptsEnvelope "0x7a69" localEnvelope = true := by
  decide +kernel

end Replay

end ChainLab.Core
