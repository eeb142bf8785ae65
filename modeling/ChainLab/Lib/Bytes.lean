import ChainLab.Lib.GoStrings

/-! Bits of byte strings, fixed-width big-endian integers, base64url and hexadecimal texts. -/

namespace ChainLab.Lib

/-! ### Bits -/

/-- Bit `i` of a byte, counted from the most significant one. -/
def byteBit (b : UInt8) (i : Nat) : Bool := b.toBitVec.getLsbD (7 - i)

/-- Bit `j` of a byte string, counted from the most significant bit of its first byte. -/
def bitAt (bytes : List UInt8) (j : Nat) : Bool := byteBit (bytes.getD (j / 8) 0) (j % 8)

/-- The first `n` bits of a byte string. -/
def bitsUpTo (bytes : List UInt8) (n : Nat) : List Bool := (List.range n).map (bitAt bytes)

@[simp] theorem length_bitsUpTo (bytes : List UInt8) (n : Nat) : (bitsUpTo bytes n).length = n := by
  simp [bitsUpTo]

theorem bitsUpTo_succ (bytes : List UInt8) (n : Nat) :
    bitsUpTo bytes (n + 1) = bitsUpTo bytes n ++ [bitAt bytes n] := by
  simp [bitsUpTo, List.range_succ]

theorem bitsUpTo_eq_iff {xs ys : List UInt8} {n : Nat} :
    bitsUpTo xs n = bitsUpTo ys n ↔ ∀ j < n, bitAt xs j = bitAt ys j := by
  simp [bitsUpTo, List.map_inj_left]

theorem byte_ext {a b : UInt8} (h : ∀ i < 8, byteBit a i = byteBit b i) : a = b := by
  apply UInt8.toBitVec_inj.mp
  apply BitVec.eq_of_getLsbD_eq
  intro i hi
  have := h (7 - i) (by omega)
  unfold byteBit at this
  rwa [show 7 - (7 - i) = i by omega] at this

/-- Byte strings of one length are equal when all their bits are. -/
theorem bytes_ext {xs ys : List UInt8} (hlen : xs.length = ys.length)
    (h : ∀ j < 8 * xs.length, bitAt xs j = bitAt ys j) : xs = ys := by
  apply List.ext_getElem hlen
  intro i hx hy
  apply byte_ext
  intro k hk
  have := h (8 * i + k) (by omega)
  unfold bitAt at this
  rw [show (8 * i + k) / 8 = i by omega, show (8 * i + k) % 8 = k by omega] at this
  rwa [List.getD_eq_getElem xs 0 hx, List.getD_eq_getElem ys 0 hy] at this

/-- `bytes[index] = op(bytes[index])`. -/
def updateByte (bytes : List UInt8) (index : Nat) (op : UInt8 → UInt8) : List UInt8 := bytes.modify index op

theorem bitAt_updateByte {bytes : List UInt8} {index : Nat} (op : UInt8 → UInt8) (j : Nat)
    (h : index < bytes.length) :
    bitAt (updateByte bytes index op) j =
      if j / 8 = index then byteBit (op (bytes.getD index 0)) (j % 8) else bitAt bytes j := by
  unfold bitAt updateByte
  by_cases hj : j / 8 = index
  · subst hj
    rw [if_pos rfl, List.getD_eq_getElem?_getD, List.getElem?_modify_eq, List.getD_eq_getElem?_getD]
    simp [List.getElem?_eq_getElem h]
  · rw [if_neg hj, List.getD_eq_getElem?_getD, List.getElem?_modify, List.getD_eq_getElem?_getD]
    simp [Ne.symm hj]

private theorem byteBit_singleBit {b : UInt8} {i k : Nat} (hi : i < 8) (hk : k < 8) :
    byteBit (b ^^^ (1 <<< UInt8.ofNat (7 - k))) i = (byteBit b i ^^ decide (i = k)) ∧
      byteBit (b ||| (1 <<< UInt8.ofNat (7 - k))) i = (byteBit b i || decide (i = k)) := by
  have hbit : byteBit (1 <<< UInt8.ofNat (7 - k)) i = decide (i = k) := by
    interval_cases i <;> interval_cases k <;> rfl
  unfold byteBit at hbit ⊢
  rw [UInt8.toBitVec_xor, UInt8.toBitVec_or, BitVec.getLsbD_xor, BitVec.getLsbD_or, hbit]
  exact ⟨rfl, rfl⟩

theorem byteBit_xor_single {b : UInt8} {i k : Nat} (hi : i < 8) (hk : k < 8) :
    byteBit (b ^^^ (1 <<< UInt8.ofNat (7 - k))) i = (byteBit b i ^^ decide (i = k)) :=
  (byteBit_singleBit hi hk).1

theorem byteBit_or_single {b : UInt8} {i k : Nat} (hi : i < 8) (hk : k < 8) :
    byteBit (b ||| (1 <<< UInt8.ofNat (7 - k))) i = (byteBit b i || decide (i = k)) :=
  (byteBit_singleBit hi hk).2

theorem byteBit_and_mask {b : UInt8} {i r : Nat} (hi : i < 8) (hr : 0 < r) (hr8 : r < 8) :
    byteBit (b &&& (0xff <<< UInt8.ofNat (8 - r))) i = (byteBit b i && decide (i < r)) := by
  have hbit : byteBit (0xff <<< UInt8.ofNat (8 - r)) i = decide (i < r) := by
    interval_cases i <;> interval_cases r <;> rfl
  unfold byteBit at hbit ⊢
  rw [UInt8.toBitVec_and, BitVec.getLsbD_and, hbit]

@[simp] theorem byteBit_zero (i : Nat) : byteBit 0 i = false := by
  unfold byteBit
  exact BitVec.getLsbD_zero

/-- Reading one bit by shift and mask. -/
theorem shift_and_one_eq_zero {b : UInt8} {i : Nat} (hi : i < 8) :
    (b >>> UInt8.ofNat (7 - i)) &&& 1 = 0 ↔ byteBit b i = false := by
  have hone : ∀ x : UInt8, x &&& 1 = 0 ↔ x.toBitVec.getLsbD 0 = false := by
    intro x
    rw [← UInt8.toBitVec_inj, UInt8.toBitVec_and]
    constructor
    · intro h
      have := congrArg (fun v : BitVec 8 => v.getLsbD 0) h
      simpa using this
    · intro h
      apply BitVec.eq_of_getLsbD_eq
      intro j hj
      rw [BitVec.getLsbD_and]
      rcases Nat.eq_zero_or_pos j with rfl | hpos
      · rw [h, Bool.false_and]; rfl
      · have hzero : (1 : UInt8).toBitVec.getLsbD j = false := by
          interval_cases j <;> rfl
        rw [hzero, Bool.and_false]
        exact BitVec.getLsbD_zero.symm
  rw [hone, UInt8.toBitVec_shiftRight, BitVec.ushiftRight_eq', BitVec.getLsbD_ushiftRight]
  unfold byteBit
  have hshift : ((UInt8.ofNat (7 - i)).toBitVec % 8).toNat = 7 - i := by
    interval_cases i <;> rfl
  rw [hshift, Nat.add_zero]

/-- Testing one bit by a mask. -/
theorem and_single_ne_zero {b : UInt8} {k : Nat} (hk : k < 8) :
    b &&& (1 <<< UInt8.ofNat (7 - k)) ≠ 0 ↔ byteBit b k = true := by
  have hbits : ∀ i < 8, byteBit (b &&& (1 <<< UInt8.ofNat (7 - k))) i = (byteBit b i && decide (i = k)) := by
    intro i hi
    have hbit : byteBit (1 <<< UInt8.ofNat (7 - k)) i = decide (i = k) := by
      interval_cases i <;> interval_cases k <;> rfl
    unfold byteBit at hbit ⊢
    rw [UInt8.toBitVec_and, BitVec.getLsbD_and, hbit]
  constructor
  · intro hne
    by_contra hbit
    apply hne
    apply byte_ext
    intro i hi
    rw [hbits i hi, byteBit_zero]
    by_cases hik : i = k
    · subst hik; simpa using hbit
    · simp [hik]
  · intro hbit hzero
    have := hbits k hk
    rw [hzero, byteBit_zero, hbit] at this
    simp at this

/-! ### Counting bits -/

/-- `bits.OnesCount8`. -/
def onesCount (b : UInt8) : Nat := (List.range 8).countP (byteBit b)

/-- The set bits of a byte string, counted byte by byte. -/
theorem sum_onesCount (bytes : List UInt8) :
    (bytes.map onesCount).sum = (List.range (8 * bytes.length)).countP (bitAt bytes) := by
  induction bytes with
  | nil => rfl
  | cons b rest ih =>
    have hsplit : List.range (8 * (b :: rest).length) =
        List.range 8 ++ (List.range (8 * rest.length)).map (8 + ·) := by
      rw [← List.range_add, List.length_cons]
      congr 1
      omega
    have hfirst : ∀ i ∈ List.range 8, bitAt (b :: rest) i = byteBit b i := by
      intro i hi
      have hi8 : i < 8 := List.mem_range.mp hi
      unfold bitAt
      rw [Nat.div_eq_of_lt hi8, Nat.mod_eq_of_lt hi8]
      rfl
    have hrest : ∀ j, bitAt (b :: rest) (8 + j) = bitAt rest j := by
      intro j
      unfold bitAt
      rw [show (8 + j) / 8 = j / 8 + 1 by omega, show (8 + j) % 8 = j % 8 by omega]
      rfl
    have hcong : (List.range 8).countP (bitAt (b :: rest)) = onesCount b :=
      List.countP_congr fun i hi => by rw [hfirst i hi]
    rw [List.map_cons, List.sum_cons, ih, hsplit, List.countP_append, hcong, List.countP_map]
    congr 2
    funext j
    exact (hrest j).symm

/-! ### Integers -/

/-- The `width` low bytes of a number, most significant first. -/
def bigEndianBytes : (width : Nat) → Nat → List UInt8
  | 0, _ => []
  | width + 1, n => bigEndianBytes width (n / 256) ++ [UInt8.ofNat n]

@[simp] theorem length_bigEndianBytes (width n : Nat) : (bigEndianBytes width n).length = width := by
  induction width generalizing n with
  | zero => rfl
  | succ width ih => simp [bigEndianBytes, ih]

theorem bigEndianBytes_inj {width m n : Nat} (hm : m < 256 ^ width) (hn : n < 256 ^ width)
    (h : bigEndianBytes width m = bigEndianBytes width n) : m = n := by
  induction width generalizing m n with
  | zero => simp only [Nat.pow_zero, Nat.lt_one_iff] at hm hn; omega
  | succ width ih =>
    simp only [bigEndianBytes] at h
    obtain ⟨hhigh, hlow⟩ := List.append_inj h (by simp)
    have hdiv : m / 256 = n / 256 := ih (Nat.div_lt_of_lt_mul (by rw [Nat.pow_succ] at hm; omega))
      (Nat.div_lt_of_lt_mul (by rw [Nat.pow_succ] at hn; omega)) hhigh
    have hbyte : (UInt8.ofNat m).toNat = (UInt8.ofNat n).toNat := by
      rw [List.cons.injEq] at hlow
      rw [hlow.1]
    simp only [UInt8.toNat_ofNat'] at hbyte
    omega

/-! ### Hexadecimal -/

private theorem hexDigitValue_digitChar {d : Nat} (h : d < 16) : hexDigitValue (Nat.digitChar d) = some d := by
  interval_cases d <;> rfl

theorem hexDecode_hexEncode (bytes : List UInt8) : hexDecode (hexEncode bytes) = some bytes := by
  induction bytes with
  | nil => rfl
  | cons b rest ih =>
    have hb := b.toNat_lt
    have hhigh := hexDigitValue_digitChar (d := b.toNat / 16) (by omega)
    have hlow := hexDigitValue_digitChar (d := b.toNat % 16) (by omega)
    have hcons : hexEncode (b :: rest) =
        Nat.digitChar (b.toNat / 16) :: Nat.digitChar (b.toNat % 16) :: hexEncode rest := rfl
    rw [hcons, hexDecode, hhigh, hlow, ih]
    simp only [Option.pure_def, Option.bind_eq_bind, Option.bind_some, Option.some.injEq, List.cons.injEq, and_true]
    rw [show 16 * (b.toNat / 16) + b.toNat % 16 = b.toNat by omega, UInt8.ofNat_toNat]

/-- What holds of the sixteen digits holds of every rune of a hexadecimal text. -/
theorem forall_hexEncode {p : Char → Prop} (h : ∀ d < 16, p (Nat.digitChar d)) (bytes : List UInt8) :
    ∀ c ∈ hexEncode bytes, p c := by
  intro c hc
  obtain ⟨b, -, hb⟩ := List.mem_flatMap.mp hc
  have hbyte := b.toNat_lt
  simp only [List.mem_cons, List.not_mem_nil, or_false] at hb
  obtain rfl | rfl := hb
  · exact h _ (by omega)
  · exact h _ (by omega)

theorem hexEncode_ascii (bytes : List UInt8) : ∀ c ∈ hexEncode bytes, c.toNat < 128 :=
  forall_hexEncode (by decide) bytes

/-- A rune that neither `trimSpace` nor `toLower` changes. -/
def PlainRune (c : Char) : Prop := isSpace c = false ∧ runeToLower c = c

instance (c : Char) : Decidable (PlainRune c) := inferInstanceAs (Decidable (_ ∧ _))

theorem hexEncode_plain (bytes : List UInt8) : ∀ c ∈ hexEncode bytes, PlainRune c :=
  forall_hexEncode (by decide) bytes

theorem trimSpace_of_plain {s : String} (h : ∀ c ∈ s.toList, PlainRune c) : trimSpace s = s :=
  trimSpace_of_no_space fun c hc => (h c hc).1

theorem toLower_of_plain {s : String} (h : ∀ c ∈ s.toList, PlainRune c) : toLower s = s := by
  unfold toLower
  rw [runes_eq, List.map_congr_left fun c hc => (h c hc).2, List.map_id', String.ofList_toList]

theorem hexDecode_length {text : List Char} {bytes : List UInt8} (h : hexDecode text = some bytes) :
    text.length = 2 * bytes.length := by
  fun_induction hexDecode text generalizing bytes with
  | case1 =>
    cases h
    rfl
  | case2 => cases h
  | case3 hi lo rest ih =>
    simp only [Option.pure_def, Option.bind_eq_bind, Option.bind_eq_some_iff, Option.some.injEq] at h
    obtain ⟨high, -, low, -, decoded, hrest, rfl⟩ := h
    rw [List.length_cons, List.length_cons, ih hrest, List.length_cons]
    omega

@[simp] theorem length_hexEncode (bytes : List UInt8) : (hexEncode bytes).length = 2 * bytes.length := by
  induction bytes with
  | nil => rfl
  | cons b rest ih =>
    have hcons : hexEncode (b :: rest) =
        Nat.digitChar (b.toNat / 16) :: Nat.digitChar (b.toNat % 16) :: hexEncode rest := rfl
    rw [hcons, List.length_cons, List.length_cons, ih, List.length_cons]
    omega

/-! ### Base64url without padding -/

def base64Alphabet : List Char :=
  "ABCDEFGHIJKLMNOPQRSTUVWXYZabcdefghijklmnopqrstuvwxyz0123456789-_".toList

def base64Char (v : Nat) : Char := base64Alphabet.getD v 'A'

def base64Value (c : Char) : Option Nat := base64Alphabet.findIdx? (· = c)

/-- `base64.RawURLEncoding.EncodeToString`, as runes. -/
def base64Encode : List UInt8 → List Char
  | [] => []
  | [a] => [base64Char (a.toNat / 4), base64Char (a.toNat % 4 * 16)]
  | [a, b] => [base64Char (a.toNat / 4), base64Char (a.toNat % 4 * 16 + b.toNat / 16),
      base64Char (b.toNat % 16 * 4)]
  | a :: b :: c :: rest => base64Char (a.toNat / 4) :: base64Char (a.toNat % 4 * 16 + b.toNat / 16) ::
      base64Char (b.toNat % 16 * 4 + c.toNat / 64) :: base64Char (c.toNat % 64) :: base64Encode rest

/-- The bytes of a run of 6-bit values. A lone last value is an error; the unused low bits of the last
value are not looked at. -/
def base64Join : List Nat → Option (List UInt8)
  | [] => some []
  | [_] => none
  | [v, w] => some [UInt8.ofNat (v * 4 + w / 16)]
  | [v, w, x] => some [UInt8.ofNat (v * 4 + w / 16), UInt8.ofNat (w % 16 * 16 + x / 4)]
  | v :: w :: x :: y :: rest => (base64Join rest).map fun bytes =>
      UInt8.ofNat (v * 4 + w / 16) :: UInt8.ofNat (w % 16 * 16 + x / 4) :: UInt8.ofNat (x % 4 * 64 + y) :: bytes

/-- `base64.RawURLEncoding.DecodeString`: line breaks are skipped. -/
def base64Decode (text : List Char) : Option (List UInt8) :=
  ((text.filter fun c => c ≠ '\r' ∧ c ≠ '\n').mapM base64Value).bind base64Join

private theorem base64Value_base64Char {v : Nat} (h : v < 64) : base64Value (base64Char v) = some v := by
  interval_cases v <;> rfl

private theorem base64Char_keep {v : Nat} (h : v < 64) :
    decide (base64Char v ≠ '\r' ∧ base64Char v ≠ '\n') = true := by
  interval_cases v <;> rfl

/-- The 6-bit values that encode a byte string. -/
private def base64Split : List UInt8 → List Nat
  | [] => []
  | [a] => [a.toNat / 4, a.toNat % 4 * 16]
  | [a, b] => [a.toNat / 4, a.toNat % 4 * 16 + b.toNat / 16, b.toNat % 16 * 4]
  | a :: b :: c :: rest => a.toNat / 4 :: (a.toNat % 4 * 16 + b.toNat / 16) ::
      (b.toNat % 16 * 4 + c.toNat / 64) :: c.toNat % 64 :: base64Split rest

private theorem base64Encode_eq (bytes : List UInt8) :
    base64Encode bytes = (base64Split bytes).map base64Char := by
  induction bytes using base64Split.induct with
  | case1 => rfl
  | case2 a => rfl
  | case3 a b => rfl
  | case4 a b c rest ih => simp [base64Encode, base64Split, ih]

private theorem base64Split_lt (bytes : List UInt8) : ∀ v ∈ base64Split bytes, v < 64 := by
  induction bytes using base64Split.induct with
  | case1 => simp [base64Split]
  | case2 a =>
    have := a.toNat_lt
    simp only [base64Split, List.mem_cons, List.not_mem_nil, or_false, forall_eq_or_imp, forall_eq]
    omega
  | case3 a b =>
    have := a.toNat_lt
    have := b.toNat_lt
    simp only [base64Split, List.mem_cons, List.not_mem_nil, or_false, forall_eq_or_imp, forall_eq]
    omega
  | case4 a b c rest ih =>
    have := a.toNat_lt
    have := b.toNat_lt
    have := c.toNat_lt
    simp only [base64Split, List.mem_cons, forall_eq_or_imp]
    exact ⟨by omega, by omega, by omega, by omega, ih⟩

private theorem base64Join_split (bytes : List UInt8) : base64Join (base64Split bytes) = some bytes := by
  induction bytes using base64Split.induct with
  | case1 => rfl
  | case2 a =>
    have := a.toNat_lt
    simp only [base64Split, base64Join]
    rw [show a.toNat / 4 * 4 + a.toNat % 4 * 16 / 16 = a.toNat by omega, UInt8.ofNat_toNat]
  | case3 a b =>
    have := a.toNat_lt
    have := b.toNat_lt
    simp only [base64Split, base64Join]
    rw [show a.toNat / 4 * 4 + (a.toNat % 4 * 16 + b.toNat / 16) / 16 = a.toNat by omega,
      show (a.toNat % 4 * 16 + b.toNat / 16) % 16 * 16 + b.toNat % 16 * 4 / 4 = b.toNat by omega,
      UInt8.ofNat_toNat, UInt8.ofNat_toNat]
  | case4 a b c rest ih =>
    have := a.toNat_lt
    have := b.toNat_lt
    have := c.toNat_lt
    simp only [base64Split, base64Join, ih, Option.map_some]
    rw [show a.toNat / 4 * 4 + (a.toNat % 4 * 16 + b.toNat / 16) / 16 = a.toNat by omega,
      show (a.toNat % 4 * 16 + b.toNat / 16) % 16 * 16 + (b.toNat % 16 * 4 + c.toNat / 64) / 4 = b.toNat by omega,
      show (b.toNat % 16 * 4 + c.toNat / 64) % 4 * 64 + c.toNat % 64 = c.toNat by omega,
      UInt8.ofNat_toNat, UInt8.ofNat_toNat, UInt8.ofNat_toNat]

theorem base64Decode_base64Encode (bytes : List UInt8) : base64Decode (base64Encode bytes) = some bytes := by
  have hlt := base64Split_lt bytes
  have hkeep : ((base64Split bytes).map base64Char).filter (fun c => c ≠ '\r' ∧ c ≠ '\n') =
      (base64Split bytes).map base64Char := by
    rw [List.filter_eq_self]
    intro c hc
    obtain ⟨v, hv, rfl⟩ := List.mem_map.mp hc
    exact base64Char_keep (hlt v hv)
  have hvalues : ∀ vs : List Nat, (∀ v ∈ vs, v < 64) → (vs.map base64Char).mapM base64Value = some vs := by
    intro vs hvs
    induction vs with
    | nil => rfl
    | cons v rest ih =>
      rw [List.map_cons, List.mapM_cons, base64Value_base64Char (hvs v (by simp)),
        ih fun w hw => hvs w (by simp [hw])]
      rfl
  rw [base64Decode, base64Encode_eq, hkeep, hvalues _ hlt, Option.bind_some, base64Join_split]

theorem base64Encode_injective : Function.Injective base64Encode := by
  intro a b h
  have := congrArg base64Decode h
  simpa only [base64Decode_base64Encode, Option.some.injEq] using this

end ChainLab.Lib
