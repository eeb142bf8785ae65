import ChainLab.Contracts.WasmModule
import ChainLab.Lib.Leb128

/-! The instruction reader against the binary format: it accepts exactly the concatenations of allowed
instructions, and returns the targets of their calls. -/

namespace ChainLab.Contracts

open ChainLab.Lib ChainLab.Types

/-! ### Bytes -/

section Bytes

theorem and_high_bit (b : UInt8) : b &&& 0x80 = 0 ↔ b.toNat < 128 := by
  have h : ∀ n : Fin 256, UInt8.ofFin n &&& 0x80 = 0 ↔ (UInt8.ofFin n).toNat < 128 := by decide +kernel
  exact h b.toFin

theorem and_high_nibble (b : UInt8) : b &&& 0xf0 = 0 ↔ b.toNat < 16 := by
  have h : ∀ n : Fin 256, UInt8.ofFin n &&& 0xf0 = 0 ↔ (UInt8.ofFin n).toNat < 16 := by decide +kernel
  exact h b.toFin

theorem toNat_and_payload (b : UInt8) : (b &&& 0x7f).toNat = b.toNat % 128 := by
  have h : ∀ n : Fin 256, (UInt8.ofFin n &&& 0x7f).toNat = (UInt8.ofFin n).toNat % 128 := by decide +kernel
  exact h b.toFin

/-- The next seven bits of a number go above those that it has. -/
theorem toNat_or_shift {result shift : UInt32} {b : UInt8} (hshift : shift.toNat < 32)
    (hresult : result.toNat < 2 ^ shift.toNat) (hfits : b.toNat % 128 * 2 ^ shift.toNat < 2 ^ 32) :
    (result ||| (b &&& 0x7f).toUInt32 <<< shift).toNat = result.toNat + b.toNat % 128 * 2 ^ shift.toNat := by
  rw [UInt32.toNat_or, UInt32.toNat_shiftLeft, UInt8.toNat_toUInt32, toNat_and_payload, Nat.mod_eq_of_lt hshift,
    Nat.shiftLeft_eq, Nat.mod_eq_of_lt hfits, Nat.or_comm, Nat.mul_comm (b.toNat % 128),
    ← Nat.two_pow_add_eq_or_of_lt hresult, Nat.add_comm]

end Bytes

/-! ### Numbers -/

/-- The rounds of `readU32` read the bits that are left of the number. -/
theorem readU32From_iff (rounds : Nat) : ∀ {result shift : UInt32} {data : List UInt8} {v : UInt32} {rest : List UInt8},
    rounds ≤ 4 → shift.toNat = 28 - 7 * rounds → result.toNat < 2 ^ shift.toNat →
    (readU32From (rounds + 1) result shift data = some (v, rest) ↔
      ∃ bytes m, data = bytes ++ rest ∧ UnsignedLEB (7 * rounds + 4) m bytes ∧
        v.toNat = result.toNat + m * 2 ^ shift.toNat) := by
  induction rounds with
  | zero =>
    intro result shift data v rest _ hshift hresult
    cases data with
    | nil =>
      refine ⟨fun h => (nomatch h), ?_⟩
      rintro ⟨bytes, m, hdata, hleb, _⟩
      exact absurd (List.append_eq_nil_iff.mp hdata.symm).1 hleb.ne_nil
    | cons b data =>
      have hstep : readU32From 1 result shift (b :: data) =
          if b &&& 0xf0 ≠ 0 then none
          else if b &&& 0x80 = 0 then some (result ||| (b &&& 0x7f).toUInt32 <<< shift, data) else none := by
        simp only [readU32From, readByte, true_and]
        rfl
      rw [hstep, unsignedLEB_first]
      by_cases hnibble : b.toNat < 16
      · have hor : (result ||| (b &&& 0x7f).toUInt32 <<< shift).toNat = result.toNat + b.toNat * 2 ^ shift.toNat := by
          have hmod : b.toNat % 128 = b.toNat := Nat.mod_eq_of_lt (by omega)
          rw [← hmod]
          refine toNat_or_shift (by omega) hresult ?_
          rw [hmod, hshift]
          omega
        rw [if_neg (not_not.mpr ((and_high_nibble b).mpr hnibble)), if_pos ((and_high_bit b).mpr (by omega)),
          Option.some.injEq, Prod.mk.injEq, ← UInt32.toNat_inj, hor, eq_comm, and_comm]
        constructor
        · exact fun ⟨hrest, hv⟩ => .inl ⟨by omega, by simpa using hnibble, hrest, hv⟩
        · rintro (⟨_, _, hrest, hv⟩ | ⟨_, hbits, _⟩)
          · exact ⟨hrest, hv⟩
          · omega
      · rw [if_pos (mt (and_high_nibble b).mp hnibble)]
        refine ⟨fun h => (nomatch h), ?_⟩
        rintro (⟨_, hlow, _⟩ | ⟨_, hbits, _⟩)
        · exact absurd (by simpa using hlow) hnibble
        · omega
  | succ rounds ih =>
    intro result shift data v rest hrounds hshift hresult
    cases data with
    | nil =>
      refine ⟨fun h => (nomatch h), ?_⟩
      rintro ⟨bytes, m, hdata, hleb, _⟩
      exact absurd (List.append_eq_nil_iff.mp hdata.symm).1 hleb.ne_nil
    | cons b data =>
      have hstep : readU32From (rounds + 1 + 1) result shift (b :: data) =
          if b &&& 0x80 = 0 then some (result ||| (b &&& 0x7f).toUInt32 <<< shift, data)
          else readU32From (rounds + 1) (result ||| (b &&& 0x7f).toUInt32 <<< shift) (shift + 7) data := by
        rw [readU32From]
        simp only [readByte, Nat.succ_ne_zero, false_and, if_false]
        rfl
      have hor : (result ||| (b &&& 0x7f).toUInt32 <<< shift).toNat =
          result.toNat + b.toNat % 128 * 2 ^ shift.toNat := by
        refine toNat_or_shift (by omega) hresult ?_
        have hpow : 2 ^ shift.toNat ≤ 2 ^ 21 := Nat.pow_le_pow_right (by decide) (by omega)
        have hmod : b.toNat % 128 ≤ 127 := by omega
        calc b.toNat % 128 * 2 ^ shift.toNat ≤ 127 * 2 ^ 21 := Nat.mul_le_mul hmod hpow
          _ < 2 ^ 32 := by decide
      rw [hstep, unsignedLEB_first]
      by_cases hlast : b.toNat < 128
      · have hpow : 2 ^ 7 ≤ 2 ^ (7 * (rounds + 1) + 4) := Nat.pow_le_pow_right (by decide) (by omega)
        have hbits : b.toNat < 2 ^ (7 * (rounds + 1) + 4) := lt_of_lt_of_le hlast hpow
        rw [if_pos ((and_high_bit b).mpr hlast), Option.some.injEq, Prod.mk.injEq, ← UInt32.toNat_inj, hor,
          Nat.mod_eq_of_lt hlast, eq_comm, and_comm]
        constructor
        · exact fun ⟨hrest, hv⟩ => .inl ⟨hlast, hbits, hrest, hv⟩
        · rintro (⟨_, _, hrest, hv⟩ | ⟨hmore, _⟩)
          · exact ⟨hrest, hv⟩
          · omega
      · have hseven : (shift + 7).toNat = shift.toNat + 7 := by
          have hconst : (7 : UInt32).toNat = 7 := rfl
          rw [UInt32.toNat_add, hconst]
          exact Nat.mod_eq_of_lt (by omega)
        have hb := b.toNat_lt
        have hmod : b.toNat % 128 = b.toNat - 128 := by omega
        have hdouble : 2 ^ (shift.toNat + 7) = 128 * 2 ^ shift.toNat := by rw [Nat.pow_add, Nat.mul_comm]
        have hnext : (result ||| (b &&& 0x7f).toUInt32 <<< shift).toNat < 2 ^ (shift + 7).toNat := by
          have hmul : b.toNat % 128 * 2 ^ shift.toNat ≤ 127 * 2 ^ shift.toNat := Nat.mul_le_mul_right _ (by omega)
          rw [hor, hseven, hdouble]
          omega
        rw [if_neg (mt (and_high_bit b).mp hlast), ih (by omega) (by omega) hnext, hor, hmod, hseven, hdouble]
        have hvalue (m : Nat) : result.toNat + (b.toNat - 128) * 2 ^ shift.toNat + m * (128 * 2 ^ shift.toNat) =
            result.toNat + (128 * m + (b.toNat - 128)) * 2 ^ shift.toNat := by ring
        have hless : 7 * (rounds + 1) + 4 - 7 = 7 * rounds + 4 := by omega
        simp only [hvalue, hless]
        constructor
        · exact fun h => .inr ⟨not_lt.mp hlast, by omega, h⟩
        · rintro (⟨h, _⟩ | ⟨_, _, h⟩)
          · omega
          · exact h

/-- A number of 32 bits, as an immediate. -/
def EncodesU32 (v : UInt32) (bytes : List UInt8) : Prop := UnsignedLEB 32 v.toNat bytes

theorem readU32_reads : Reads EncodesU32 readU32 := by
  intro data v rest
  rw [readU32, readU32From_iff 4 le_rfl rfl (by decide)]
  constructor
  · rintro ⟨bytes, m, hdata, hleb, hv⟩
    have hv : v.toNat = m := by simpa using hv
    exact ⟨bytes, hdata, by rw [EncodesU32, hv]; exact hleb⟩
  · rintro ⟨bytes, hdata, hleb⟩
    exact ⟨bytes, v.toNat, hdata, hleb, by simp⟩

/-- The sign check of the last byte, for the three widths in use. -/
theorem signExtended_iff {used : Nat} (hused : used = 1 ∨ used = 4 ∨ used = 5) (b : UInt8) (hlast : b.toNat < 128) :
    let unusedMask : UInt8 := (UInt8.ofNat (2 ^ used - 1)).complement &&& 0x7f
    let payload := b &&& 0x7f
    let signBit : UInt8 := UInt8.ofNat (2 ^ (used - 1))
    ((¬(payload &&& signBit = 0 ∧ payload &&& unusedMask ≠ 0)) ∧
      ¬(payload &&& signBit ≠ 0 ∧ payload &&& unusedMask ≠ unusedMask)) ↔
    (b.toNat < 64 ∧ b.toNat < 2 ^ (used - 1) ∨ 64 ≤ b.toNat ∧ 128 ≤ b.toNat + 2 ^ (used - 1)) := by
  have h : ∀ used ∈ [1, 4, 5], ∀ n : Fin 256, (UInt8.ofFin n).toNat < 128 →
      ((¬(UInt8.ofFin n &&& 0x7f &&& UInt8.ofNat (2 ^ (used - 1)) = 0 ∧
        UInt8.ofFin n &&& 0x7f &&& ((UInt8.ofNat (2 ^ used - 1)).complement &&& 0x7f) ≠ 0)) ∧
      ¬(UInt8.ofFin n &&& 0x7f &&& UInt8.ofNat (2 ^ (used - 1)) ≠ 0 ∧
        UInt8.ofFin n &&& 0x7f &&& ((UInt8.ofNat (2 ^ used - 1)).complement &&& 0x7f) ≠
          (UInt8.ofNat (2 ^ used - 1)).complement &&& 0x7f) ↔
      ((UInt8.ofFin n).toNat < 64 ∧ (UInt8.ofFin n).toNat < 2 ^ (used - 1) ∨
        64 ≤ (UInt8.ofFin n).toNat ∧ 128 ≤ (UInt8.ofFin n).toNat + 2 ^ (used - 1))) := by decide +kernel
  exact h used (by simpa using hused) b.toFin hlast

theorem readSignedLEBFrom_iff {bitWidth used : Nat} (hused : used = 1 ∨ used = 4 ∨ used = 5) (rounds : Nat) :
    ∀ {byteIndex : Nat} {data rest : List UInt8}, bitWidth - byteIndex * 7 = 7 * rounds + used →
    (readSignedLEBFrom bitWidth (rounds + 1) byteIndex data = some rest ↔
      ∃ bytes, data = bytes ++ rest ∧ ∃ v, SignedLEB (7 * rounds + used) v bytes) := by
  have hnil {bits : Nat} {rest : List UInt8} : ¬∃ bytes, [] = bytes ++ rest ∧ ∃ v, SignedLEB bits v bytes := by
    rintro ⟨bytes, hdata, v, hleb⟩
    exact absurd (List.append_eq_nil_iff.mp hdata.symm).1 hleb.ne_nil
  induction rounds with
  | zero =>
    intro byteIndex data rest hwidth
    cases data with
    | nil => exact ⟨fun h => (nomatch h), fun h => absurd h hnil⟩
    | cons b data =>
      rw [signedLEB_first, readSignedLEBFrom]
      simp only [readByte, Option.bind_eq_bind, Option.bind_some, ne_eq, not_true_eq_false, if_false, hwidth,
        Nat.mul_zero, Nat.zero_add]
      by_cases hlast : b.toNat < 128
      · have hsign := signExtended_iff hused b hlast
        rw [if_neg (not_not.mpr ((and_high_bit b).mpr hlast))]
        dsimp only at hsign
        split_ifs with hzero hone
        · refine ⟨fun h => (nomatch h), ?_⟩
          rintro (⟨_, hcond, _⟩ | ⟨hmore, _⟩)
          · exact absurd hzero (hsign.mpr hcond).1
          · omega
        · refine ⟨fun h => (nomatch h), ?_⟩
          rintro (⟨_, hcond, _⟩ | ⟨hmore, _⟩)
          · exact absurd hone (hsign.mpr hcond).2
          · omega
        · rw [Option.some.injEq]
          constructor
          · exact fun h => .inl ⟨hlast, hsign.mp ⟨hzero, hone⟩, h⟩
          · rintro (⟨_, _, h⟩ | ⟨hmore, _⟩)
            · exact h
            · omega
      · rw [if_pos (mt (and_high_bit b).mp hlast)]
        refine ⟨fun h => (nomatch h), ?_⟩
        rintro (⟨h, _⟩ | ⟨_, hbits, _⟩)
        · exact absurd h hlast
        · omega
  | succ rounds ih =>
    intro byteIndex data rest hwidth
    cases data with
    | nil => exact ⟨fun h => (nomatch h), fun h => absurd h hnil⟩
    | cons b data =>
      rw [signedLEB_first, readSignedLEBFrom]
      simp only [readByte, Option.bind_eq_bind, Option.bind_some, ne_eq, Nat.succ_ne_zero, not_false_eq_true, if_true]
      by_cases hlast : b.toNat < 128
      · have hpow : 2 ^ 7 ≤ 2 ^ (7 * (rounds + 1) + used - 1) := Nat.pow_le_pow_right (by decide) (by omega)
        rw [if_neg (not_not.mpr ((and_high_bit b).mpr hlast)), Option.some.injEq]
        constructor
        · exact fun h => .inl ⟨hlast, by omega, h⟩
        · rintro (⟨_, _, h⟩ | ⟨hmore, _⟩)
          · exact h
          · omega
      · have hless : 7 * (rounds + 1) + used - 7 = 7 * rounds + used := by omega
        rw [if_pos (mt (and_high_bit b).mp hlast), ih (by omega), hless]
        constructor
        · exact fun h => .inr ⟨not_lt.mp hlast, by omega, h⟩
        · rintro (⟨h, _⟩ | ⟨_, _, h⟩)
          · exact absurd h hlast
          · exact h

/-- `readSignedLEB` reads a number of one of the three widths that instructions have. -/
theorem readSignedLEB_iff {bitWidth : Nat} (hwidth : bitWidth = 32 ∨ bitWidth = 33 ∨ bitWidth = 64)
    {data rest : List UInt8} : readSignedLEB bitWidth data = some rest ↔
      ∃ bytes, data = bytes ++ rest ∧ ∃ v, SignedLEB bitWidth v bytes := by
  rcases hwidth with rfl | rfl | rfl
  · exact readSignedLEBFrom_iff (.inr (.inl rfl)) 4 rfl
  · exact readSignedLEBFrom_iff (.inr (.inr rfl)) 4 rfl
  · exact readSignedLEBFrom_iff (.inl rfl) 9 rfl

/-! ### Vectors -/

/-- Numbers one after the other. -/
inductive EncodesU32s : List UInt32 → List UInt8 → Prop
  | nil : EncodesU32s [] []
  | cons {v : UInt32} {values : List UInt32} {first rest : List UInt8} (hfirst : EncodesU32 v first)
    (hrest : EncodesU32s values rest) : EncodesU32s (v :: values) (first ++ rest)

theorem EncodesU32s.length_le {values : List UInt32} {bytes : List UInt8} (h : EncodesU32s values bytes) :
    values.length ≤ bytes.length := by
  induction h with
  | nil => exact le_rfl
  | cons hfirst _ ih =>
    have := UnsignedLEB.length_pos hfirst
    rw [List.length_cons, List.length_append]
    omega

theorem skipU32s_iff {count : Nat} {data rest : List UInt8} : skipU32s count data = some rest ↔
    ∃ values bytes, data = bytes ++ rest ∧ values.length = count ∧ EncodesU32s values bytes := by
  induction count generalizing data with
  | zero =>
    rw [skipU32s, Option.some.injEq]
    constructor
    · exact fun h => ⟨[], [], h, rfl, .nil⟩
    · rintro ⟨values, bytes, hdata, hlength, hvalues⟩
      rw [List.length_eq_zero_iff.mp hlength] at hvalues
      cases hvalues
      exact hdata
  | succ count ih =>
    rw [skipU32s, Option.bind_eq_bind, Option.bind_eq_some_iff]
    constructor
    · rintro ⟨⟨v, after⟩, hread, hskip⟩
      obtain ⟨first, rfl, hfirst⟩ := (readU32_reads _ _ _).mp hread
      obtain ⟨values, bytes, rfl, hlength, hvalues⟩ := ih.mp hskip
      exact ⟨v :: values, first ++ bytes, (List.append_assoc ..).symm, by rw [List.length_cons, hlength],
        .cons hfirst hvalues⟩
    · rintro ⟨values, bytes, rfl, hlength, hvalues⟩
      cases hvalues with
      | nil => cases hlength
      | @cons v values first bytes hfirst hvalues =>
        refine ⟨(v, bytes ++ rest), (readU32_reads _ _ _).mpr ⟨first, List.append_assoc .., hfirst⟩, ?_⟩
        exact ih.mpr ⟨values, bytes, rfl, Nat.succ.inj hlength, hvalues⟩

/-- The value types of the format. -/
def valueTypes : List UInt8 := [0x7f, 0x7e, 0x7d, 0x7c, 0x70, 0x6f]

/-- The labels of a branch table, with their number in front and the default after them. -/
def EncodesLabels (bytes : List UInt8) : Prop :=
  ∃ (count : UInt32) (labels : List UInt32) (label : UInt32) (first rest : List UInt8), bytes = first ++ rest ∧
    EncodesU32 count first ∧ count.toNat = labels.length ∧ EncodesU32s (labels ++ [label]) rest

/-- A vector of value types. -/
def EncodesValueTypes (bytes : List UInt8) : Prop :=
  ∃ (count : UInt32) (first types : List UInt8), bytes = first ++ types ∧
    EncodesU32 count first ∧ count.toNat = types.length ∧ ∀ t ∈ types, t ∈ valueTypes

theorem readU32Vector_iff {data rest : List UInt8} : readU32Vector data = some rest ↔
    ∃ bytes, data = bytes ++ rest ∧ EncodesLabels bytes := by
  rw [readU32Vector, Option.bind_eq_bind, Option.bind_eq_some_iff]
  constructor
  · rintro ⟨⟨count, after⟩, hread, hskip⟩
    obtain ⟨first, rfl, hfirst⟩ := (readU32_reads _ _ _).mp hread
    dsimp only at hskip
    split at hskip
    · cases hskip
    · obtain ⟨values, bytes, rfl, hlength, hvalues⟩ := skipU32s_iff.mp hskip
      obtain ⟨labels, label, rfl⟩ : ∃ labels label, values = labels ++ [label] :=
        ⟨values.dropLast, values.getLast (List.ne_nil_of_length_eq_add_one hlength),
          (List.dropLast_append_getLast _).symm⟩
      rw [List.length_append, List.length_singleton] at hlength
      exact ⟨first ++ bytes, (List.append_assoc ..).symm, count, labels, label, first, bytes, rfl, hfirst,
        by omega, hvalues⟩
  · rintro ⟨_, rfl, count, labels, label, first, bytes, rfl, hfirst, hcount, hvalues⟩
    have hlength : (labels ++ [label]).length = count.toNat + 1 := by
      rw [List.length_append, List.length_singleton, hcount]
    refine ⟨(count, bytes ++ rest), (readU32_reads _ _ _).mpr ⟨first, List.append_assoc .., hfirst⟩, ?_⟩
    -- every label takes a byte, so the early bound does not refuse the table
    have hbound := hvalues.length_le
    dsimp only
    rw [if_neg (by rw [List.length_append]; omega)]
    exact skipU32s_iff.mpr ⟨_, bytes, rfl, hlength, hvalues⟩

theorem readValueTypeVector_iff {data rest : List UInt8} : readValueTypeVector data = some rest ↔
    ∃ bytes, data = bytes ++ rest ∧ EncodesValueTypes bytes := by
  rw [readValueTypeVector, Option.bind_eq_bind, Option.bind_eq_some_iff]
  constructor
  · rintro ⟨⟨count, after⟩, hread, htypes⟩
    obtain ⟨first, rfl, hfirst⟩ := (readU32_reads _ _ _).mp hread
    dsimp only at htypes
    split_ifs at htypes with hshort hall
    obtain rfl := Option.some.inj htypes
    refine ⟨first ++ after.take count.toNat, by rw [List.append_assoc, List.take_append_drop], count, first, _, rfl,
      hfirst, ?_, fun t hmem => ?_⟩
    · rw [List.length_take]
      omega
    · exact of_decide_eq_true (List.all_eq_true.mp hall t hmem)
  · rintro ⟨_, rfl, count, first, types, rfl, hfirst, hcount, htypes⟩
    refine ⟨(count, types ++ rest), (readU32_reads _ _ _).mpr ⟨first, List.append_assoc .., hfirst⟩, ?_⟩
    dsimp only
    rw [if_neg (by rw [List.length_append]; omega), hcount, List.take_left, List.drop_left, if_pos]
    exact List.all_eq_true.mpr fun t hmem => decide_eq_true (htypes t hmem)

theorem readBytes_iff {length : UInt32} {data rest : List UInt8} :
    (readBytes length data).map Prod.snd = some rest ↔ ∃ bytes, data = bytes ++ rest ∧ bytes.length = length.toNat := by
  unfold readBytes
  split
  · next hshort =>
    refine ⟨fun h => (nomatch h), ?_⟩
    rintro ⟨bytes, rfl, hlength⟩
    rw [List.length_append] at hshort
    omega
  · next hlong =>
    rw [Option.map_some, Option.some.injEq]
    constructor
    · rintro rfl
      exact ⟨data.take length.toNat, (List.take_append_drop ..).symm, by rw [List.length_take]; omega⟩
    · rintro ⟨bytes, rfl, hlength⟩
      rw [← hlength]
      exact List.drop_left

/-! ### Instructions -/

/-- The allowed instructions without immediates: control, parametric and reference instructions, and the
numeric ones. -/
def isPlain (opcode : UInt8) : Bool :=
  opcode ∈ [0x00, 0x01, 0x05, 0x0b, 0x0f, 0x1a, 0x1b, 0xd1] || (0x45 ≤ opcode && opcode ≤ 0xc4)

/-- The allowed instructions with one index: branches, locals, globals and tables, the memory's size, and
function references. -/
def isIndexed (opcode : UInt8) : Bool :=
  opcode ∈ [0x0c, 0x0d, 0x20, 0x21, 0x22, 0x23, 0x24, 0x25, 0x26, 0x3f, 0x40, 0xd2]

/-- Loads and stores. -/
def isMemoryAccess (opcode : UInt8) : Bool := 0x28 ≤ opcode && opcode ≤ 0x3e

/-- The immediates of the allowed instructions; a call's target is the number that follows its opcode. -/
inductive Immediates : UInt8 → Option UInt32 → List UInt8 → Prop
  | plain {opcode : UInt8} (hopcode : isPlain opcode = true) : Immediates opcode none []
  | block {opcode : UInt8} {type : Int} {bytes : List UInt8} (hopcode : opcode ∈ [0x02, 0x03, 0x04])
    (htype : SignedLEB 33 type bytes) : Immediates opcode none bytes
  | indexed {opcode : UInt8} {index : UInt32} {bytes : List UInt8} (hopcode : isIndexed opcode = true)
    (hindex : EncodesU32 index bytes) : Immediates opcode none bytes
  | branchTable {bytes : List UInt8} (hlabels : EncodesLabels bytes) : Immediates 0x0e none bytes
  | call {function : UInt32} {bytes : List UInt8} (hfunction : EncodesU32 function bytes) :
    Immediates 0x10 (some function) bytes
  | select {bytes : List UInt8} (htypes : EncodesValueTypes bytes) : Immediates 0x1c none bytes
  | memory {opcode : UInt8} {align offset : UInt32} {first second : List UInt8}
    (hopcode : isMemoryAccess opcode = true) (halign : EncodesU32 align first) (hoffset : EncodesU32 offset second) :
    Immediates opcode none (first ++ second)
  | i32Const {value : Int} {bytes : List UInt8} (hvalue : SignedLEB 32 value bytes) : Immediates 0x41 none bytes
  | i64Const {value : Int} {bytes : List UInt8} (hvalue : SignedLEB 64 value bytes) : Immediates 0x42 none bytes
  | f32Const {bytes : List UInt8} (hlength : bytes.length = 4) : Immediates 0x43 none bytes
  | f64Const {bytes : List UInt8} (hlength : bytes.length = 8) : Immediates 0x44 none bytes
  | refNull {type : Int} {bytes : List UInt8} (htype : SignedLEB 33 type bytes) : Immediates 0xd0 none bytes
  | truncate {opcode : UInt32} {bytes : List UInt8} (hopcode : EncodesU32 opcode bytes) (hallowed : opcode ≤ 0x07) :
    Immediates 0xfc none bytes
  | table {opcode index : UInt32} {first second : List UInt8} (hopcode : EncodesU32 opcode first)
    (hallowed : 0x0f ≤ opcode ∧ opcode ≤ 0x11) (hindex : EncodesU32 index second) :
    Immediates 0xfc none (first ++ second)

/-- A function body: allowed instructions one after the other, with the targets of the calls among them. -/
inductive InstructionSequence : List UInt32 → List UInt8 → Prop
  | nil : InstructionSequence [] []
  | cons {opcode : UInt8} {target : Option UInt32} {immediates : List UInt8} {targets : List UInt32}
    {rest : List UInt8} (hfirst : Immediates opcode target immediates) (hrest : InstructionSequence targets rest) :
    InstructionSequence (target.toList ++ targets) (opcode :: (immediates ++ rest))

/-! ### The reader's switch -/

/-- The cases of the switch in `parseWasmDirectCalls`. -/
inductive OpcodeClass where
  | plain | block | indexed | branchTable | call | indirect | reference | select | memory
  | i32Const | i64Const | f32Const | f64Const | refNull | misc | unknown
  deriving DecidableEq

/-- The case that the switch takes. -/
def opcodeClass (opcode : UInt8) : OpcodeClass :=
  if opcode ∈ [0x00, 0x01, 0x05, 0x0b, 0x0f, 0x1a, 0x1b, 0xd1] then .plain
  else if 0x45 ≤ opcode ∧ opcode ≤ 0xc4 then .plain
  else if opcode ∈ [0x02, 0x03, 0x04] then .block
  else if opcode = 0x0c ∨ opcode = 0x0d ∨ (0x20 ≤ opcode ∧ opcode ≤ 0x26) then .indexed
  else if opcode = 0x0e then .branchTable
  else if opcode = 0x10 then .call
  else if opcode = 0x11 then .indirect
  else if 0x12 ≤ opcode ∧ opcode ≤ 0x15 then .reference
  else if opcode = 0x1c then .select
  else if 0x28 ≤ opcode ∧ opcode ≤ 0x3e then .memory
  else if opcode = 0x3f ∨ opcode = 0x40 then .indexed
  else if opcode = 0x41 then .i32Const
  else if opcode = 0x42 then .i64Const
  else if opcode = 0x43 then .f32Const
  else if opcode = 0x44 then .f64Const
  else if opcode = 0xd0 then .refNull
  else if opcode = 0xd2 then .indexed
  else if opcode = 0xfc then .misc
  else .unknown

/-- What the cases skip; a call and a miscellaneous instruction are read on their own. -/
def skipImmediates : OpcodeClass → List UInt8 → Option (List UInt8)
  | .block, data | .refNull, data => readSignedLEB 33 data
  | .indexed, data => skipU32s 1 data
  | .branchTable, data => readU32Vector data
  | .select, data => readValueTypeVector data
  | .memory, data => skipU32s 2 data
  | .i32Const, data => readSignedLEB 32 data
  | .i64Const, data => readSignedLEB 64 data
  | .f32Const, data => (readBytes 4 data).map Prod.snd
  | .f64Const, data => (readBytes 8 data).map Prod.snd
  | _, data => some data

def readImmediates (opcode : UInt8) (data : List UInt8) : OpcodeClass → Result (Option UInt32 × List UInt8)
  | .call => do
    let (functionIndex, rest) ← require (readU32 data) (invalidWasmInstructionImmediate opcode)
    return (some functionIndex, rest)
  | .misc => do return (none, ← readAllowedMiscInstruction data)
  | .indirect => .error (newError "wasm call_indirect is forbidden in version 1")
  | .reference => .error (newError "wasm tail and function-reference calls are forbidden in version 1")
  | .unknown => .error (newError ("wasm opcode " ++ opcodeText opcode ++ " is not allowed in version 1"))
  | class_ => do return (none, ← require (skipImmediates class_ data) (invalidWasmInstructionImmediate opcode))

theorem parseWasmInstruction_eq (opcode : UInt8) (data : List UInt8) :
    parseWasmInstruction opcode data = readImmediates opcode data (opcodeClass opcode) := by
  unfold parseWasmInstruction opcodeClass
  simp only [apply_ite (readImmediates opcode data)]
  rfl

/-- The opcodes of a case. -/
def OpcodeClass.opcodes : OpcodeClass → UInt8 → Bool
  | .plain, opcode => isPlain opcode
  | .block, opcode => opcode ∈ [0x02, 0x03, 0x04]
  | .indexed, opcode => isIndexed opcode
  | .branchTable, opcode => opcode = 0x0e
  | .call, opcode => opcode = 0x10
  | .indirect, opcode => opcode = 0x11
  | .reference, opcode => 0x12 ≤ opcode && opcode ≤ 0x15
  | .select, opcode => opcode = 0x1c
  | .memory, opcode => isMemoryAccess opcode
  | .i32Const, opcode => opcode = 0x41
  | .i64Const, opcode => opcode = 0x42
  | .f32Const, opcode => opcode = 0x43
  | .f64Const, opcode => opcode = 0x44
  | .refNull, opcode => opcode = 0xd0
  | .misc, opcode => opcode = 0xfc
  | .unknown, _ => true

theorem opcodes_opcodeClass (opcode : UInt8) : (opcodeClass opcode).opcodes opcode = true := by
  have h : ∀ n : Fin 256, (opcodeClass (UInt8.ofFin n)).opcodes (UInt8.ofFin n) = true := by decide +kernel
  exact h opcode.toFin

theorem opcodeClass_of_opcodes {opcode : UInt8} {class_ : OpcodeClass} (hclass : class_ ≠ .unknown)
    (h : class_.opcodes opcode = true) : opcodeClass opcode = class_ := by
  have hall : ∀ n : Fin 256, ∀ class_ ∈ [OpcodeClass.plain, .block, .indexed, .branchTable, .call, .indirect,
      .reference, .select, .memory, .i32Const, .i64Const, .f32Const, .f64Const, .refNull, .misc],
      class_.opcodes (UInt8.ofFin n) = true → opcodeClass (UInt8.ofFin n) = class_ := by decide +kernel
  refine hall opcode.toFin class_ ?_ h
  cases class_
  all_goals first | decide | exact absurd rfl hclass

/-- The cases that only skip what follows the opcode. -/
def OpcodeClass.skips : OpcodeClass → Bool
  | .call | .misc | .indirect | .reference | .unknown => false
  | _ => true

theorem readImmediates_eq {class_ : OpcodeClass} (h : class_.skips = true) (opcode : UInt8) (data : List UInt8) :
    readImmediates opcode data class_ = do
      return (none, ← require (skipImmediates class_ data) (invalidWasmInstructionImmediate opcode)) := by
  cases class_
  all_goals first | rfl | cases h

theorem readImmediates_skips {class_ : OpcodeClass} (h : class_.skips = true) {opcode : UInt8} {data : List UInt8}
    {target : Option UInt32} {rest : List UInt8} :
    readImmediates opcode data class_ = .ok (target, rest) ↔ target = none ∧ skipImmediates class_ data = some rest := by
  simp only [readImmediates_eq h, bind_ok, require_ok, pure_eq_ok, Except.ok.injEq, Prod.mk.injEq]
  constructor
  · rintro ⟨found, hfound, rfl, rfl⟩
    exact ⟨rfl, hfound⟩
  · rintro ⟨rfl, hfound⟩
    exact ⟨rest, hfound, rfl, rfl⟩

/-- What a skipping case skips are the immediates of its opcodes. -/
theorem skipImmediates_sound {class_ : OpcodeClass} (hskips : class_.skips = true) {opcode : UInt8}
    (hopcode : class_.opcodes opcode = true) {data rest : List UInt8}
    (h : skipImmediates class_ data = some rest) : ∃ imm, data = imm ++ rest ∧ Immediates opcode none imm := by
  cases class_ with
  | call | misc | indirect | reference | unknown => cases hskips
  | plain => exact ⟨[], Option.some.inj h, .plain hopcode⟩
  | block =>
    obtain ⟨bytes, hdata, type, htype⟩ := (readSignedLEB_iff (.inr (.inl rfl))).mp h
    exact ⟨bytes, hdata, .block (of_decide_eq_true hopcode) htype⟩
  | indexed =>
    obtain ⟨values, bytes, hdata, hlength, hvalues⟩ := skipU32s_iff.mp h
    obtain ⟨index, rfl⟩ := List.length_eq_one_iff.mp hlength
    cases hvalues with
    | cons hfirst hrest =>
      cases hrest
      rw [List.append_nil] at hdata
      exact ⟨_, hdata, .indexed hopcode hfirst⟩
  | branchTable =>
    obtain ⟨bytes, hdata, hlabels⟩ := readU32Vector_iff.mp h
    obtain rfl : opcode = 0x0e := of_decide_eq_true hopcode
    exact ⟨bytes, hdata, .branchTable hlabels⟩
  | select =>
    obtain ⟨bytes, hdata, htypes⟩ := readValueTypeVector_iff.mp h
    obtain rfl : opcode = 0x1c := of_decide_eq_true hopcode
    exact ⟨bytes, hdata, .select htypes⟩
  | memory =>
    obtain ⟨values, bytes, hdata, hlength, hvalues⟩ := skipU32s_iff.mp h
    obtain ⟨align, offset, rfl⟩ := List.length_eq_two.mp hlength
    cases hvalues with
    | cons halign hrest =>
      cases hrest with
      | cons hoffset hrest =>
        cases hrest
        rw [List.append_nil] at hdata
        exact ⟨_, hdata, .memory hopcode halign hoffset⟩
  | i32Const =>
    obtain ⟨bytes, hdata, value, hvalue⟩ := (readSignedLEB_iff (.inl rfl)).mp h
    obtain rfl : opcode = 0x41 := of_decide_eq_true hopcode
    exact ⟨bytes, hdata, .i32Const hvalue⟩
  | i64Const =>
    obtain ⟨bytes, hdata, value, hvalue⟩ := (readSignedLEB_iff (.inr (.inr rfl))).mp h
    obtain rfl : opcode = 0x42 := of_decide_eq_true hopcode
    exact ⟨bytes, hdata, .i64Const hvalue⟩
  | f32Const =>
    obtain ⟨bytes, hdata, hlength⟩ := readBytes_iff.mp h
    obtain rfl : opcode = 0x43 := of_decide_eq_true hopcode
    exact ⟨bytes, hdata, .f32Const hlength⟩
  | f64Const =>
    obtain ⟨bytes, hdata, hlength⟩ := readBytes_iff.mp h
    obtain rfl : opcode = 0x44 := of_decide_eq_true hopcode
    exact ⟨bytes, hdata, .f64Const hlength⟩
  | refNull =>
    obtain ⟨bytes, hdata, type, htype⟩ := (readSignedLEB_iff (.inr (.inl rfl))).mp h
    obtain rfl : opcode = 0xd0 := of_decide_eq_true hopcode
    exact ⟨bytes, hdata, .refNull htype⟩

theorem readAllowedMiscInstruction_ok {data rest : List UInt8} : readAllowedMiscInstruction data = .ok rest ↔
    ∃ imm, data = imm ++ rest ∧ Immediates 0xfc none imm := by
  simp only [readAllowedMiscInstruction, bind_ok, require_ok]
  constructor
  · rintro ⟨⟨opcode, after⟩, hread, hrest⟩
    obtain ⟨first, rfl, hfirst⟩ := (readU32_reads _ _ _).mp hread
    dsimp only at hrest
    split_ifs at hrest with hlow htable
    · obtain rfl := Except.ok.inj hrest
      exact ⟨first, rfl, .truncate hfirst hlow⟩
    · simp only [bind_ok, require_ok, pure_eq_ok, Except.ok.injEq] at hrest
      obtain ⟨⟨index, after'⟩, hread', rfl⟩ := hrest
      obtain ⟨second, rfl, hsecond⟩ := (readU32_reads _ _ _).mp hread'
      exact ⟨first ++ second, (List.append_assoc ..).symm, .table hfirst htable hsecond⟩
  · rintro ⟨imm, rfl, himm⟩
    cases himm with
    | plain hopcode => cases hopcode
    | block hopcode => exact absurd hopcode (by decide)
    | indexed hopcode => cases hopcode
    | memory hopcode => cases hopcode
    | @truncate opcode _ hopcode hallowed =>
      refine ⟨(opcode, rest), (readU32_reads _ _ _).mpr ⟨imm, rfl, hopcode⟩, ?_⟩
      dsimp only
      rw [if_pos hallowed]
      rfl
    | @table opcode index first second hopcode hallowed hindex =>
      refine ⟨(opcode, second ++ rest), (readU32_reads _ _ _).mpr ⟨first, List.append_assoc .., hopcode⟩, ?_⟩
      have hhigh : ¬opcode ≤ 0x07 := by
        rw [UInt32.le_iff_toNat_le]
        have hlow := UInt32.le_iff_toNat_le.mp hallowed.1
        have hfifteen : (0x0f : UInt32).toNat = 15 := rfl
        have hseven : (0x07 : UInt32).toNat = 7 := rfl
        omega
      dsimp only
      rw [if_neg hhigh, if_pos hallowed, (readU32_reads _ index rest).mpr ⟨second, rfl, hindex⟩]
      rfl

/-- An instruction that is read is one of the format. -/
theorem parseWasmInstruction_sound {opcode : UInt8} {data : List UInt8} {target : Option UInt32} {rest : List UInt8}
    (h : parseWasmInstruction opcode data = .ok (target, rest)) :
    ∃ imm, data = imm ++ rest ∧ Immediates opcode target imm := by
  have hopcode := opcodes_opcodeClass opcode
  rw [parseWasmInstruction_eq] at h
  generalize opcodeClass opcode = class_ at h hopcode
  by_cases hskips : class_.skips = true
  · obtain ⟨rfl, hskip⟩ := (readImmediates_skips hskips).mp h
    exact skipImmediates_sound hskips hopcode hskip
  · cases class_ with
    | call =>
      simp only [readImmediates, bind_ok, require_ok, pure_eq_ok, Except.ok.injEq, Prod.mk.injEq] at h
      obtain ⟨⟨function, after⟩, hread, rfl, rfl⟩ := h
      obtain ⟨bytes, hdata, hfunction⟩ := (readU32_reads _ _ _).mp hread
      obtain rfl : opcode = 0x10 := of_decide_eq_true hopcode
      exact ⟨bytes, hdata, .call hfunction⟩
    | misc =>
      simp only [readImmediates, bind_ok, pure_eq_ok, Except.ok.injEq, Prod.mk.injEq] at h
      obtain ⟨after, hread, rfl, rfl⟩ := h
      obtain rfl : opcode = 0xfc := of_decide_eq_true hopcode
      exact readAllowedMiscInstruction_ok.mp hread
    | indirect | reference | unknown => cases h
    | plain | block | indexed | branchTable | select | memory | i32Const | i64Const | f32Const | f64Const | refNull =>
      exact absurd rfl hskips

/-- An instruction of the format is read to its end, whatever follows it. -/
theorem parseWasmInstruction_complete {opcode : UInt8} {target : Option UInt32} {imm : List UInt8}
    (h : Immediates opcode target imm) (rest : List UInt8) :
    parseWasmInstruction opcode (imm ++ rest) = .ok (target, rest) := by
  -- a skipping case, from what it skips
  have hskip {class_ : OpcodeClass} {opcode : UInt8} {imm : List UInt8} (hskips : class_.skips = true)
      (hopcode : class_.opcodes opcode = true) (hread : skipImmediates class_ (imm ++ rest) = some rest) :
      parseWasmInstruction opcode (imm ++ rest) = .ok (none, rest) := by
    have hclass : class_ ≠ .unknown := by
      rintro rfl
      cases hskips
    rw [parseWasmInstruction_eq, opcodeClass_of_opcodes hclass hopcode]
    exact (readImmediates_skips hskips).mpr ⟨rfl, hread⟩
  cases h with
  | plain hopcode => exact @hskip .plain _ [] rfl hopcode rfl
  | block hopcode htype =>
    exact @hskip .block _ _ rfl (decide_eq_true hopcode)
      ((readSignedLEB_iff (.inr (.inl rfl))).mpr ⟨imm, rfl, _, htype⟩)
  | @indexed _ index _ hopcode hindex =>
    refine @hskip .indexed _ _ rfl hopcode (skipU32s_iff.mpr ⟨[index], imm, rfl, rfl, ?_⟩)
    have := EncodesU32s.cons hindex .nil
    rwa [List.append_nil] at this
  | branchTable hlabels => exact @hskip .branchTable _ _ rfl rfl (readU32Vector_iff.mpr ⟨imm, rfl, hlabels⟩)
  | @call function _ hfunction =>
    rw [parseWasmInstruction_eq, @opcodeClass_of_opcodes _ .call (by decide) rfl, readImmediates,
      (readU32_reads _ function rest).mpr ⟨imm, rfl, hfunction⟩]
    rfl
  | select htypes => exact @hskip .select _ _ rfl rfl (readValueTypeVector_iff.mpr ⟨imm, rfl, htypes⟩)
  | @memory _ align offset first second hopcode halign hoffset =>
    refine @hskip .memory _ _ rfl hopcode (skipU32s_iff.mpr ⟨[align, offset], first ++ second, rfl, rfl, ?_⟩)
    have := EncodesU32s.cons halign (.cons hoffset .nil)
    rwa [List.append_nil] at this
  | i32Const hvalue => exact @hskip .i32Const _ _ rfl rfl ((readSignedLEB_iff (.inl rfl)).mpr ⟨imm, rfl, _, hvalue⟩)
  | i64Const hvalue =>
    exact @hskip .i64Const _ _ rfl rfl ((readSignedLEB_iff (.inr (.inr rfl))).mpr ⟨imm, rfl, _, hvalue⟩)
  | f32Const hlength => exact @hskip .f32Const _ _ rfl rfl (readBytes_iff.mpr ⟨imm, rfl, hlength⟩)
  | f64Const hlength => exact @hskip .f64Const _ _ rfl rfl (readBytes_iff.mpr ⟨imm, rfl, hlength⟩)
  | refNull htype =>
    exact @hskip .refNull _ _ rfl rfl ((readSignedLEB_iff (.inr (.inl rfl))).mpr ⟨imm, rfl, _, htype⟩)
  | truncate hopcode hallowed =>
    rw [parseWasmInstruction_eq, @opcodeClass_of_opcodes _ .misc (by decide) rfl, readImmediates,
      readAllowedMiscInstruction_ok.mpr ⟨imm, rfl, .truncate hopcode hallowed⟩]
    rfl
  | table hopcode hallowed hindex =>
    rw [parseWasmInstruction_eq, @opcodeClass_of_opcodes _ .misc (by decide) rfl, readImmediates,
      readAllowedMiscInstruction_ok.mpr ⟨_, rfl, .table hopcode hallowed hindex⟩]
    rfl

/-! ### The loop -/

/-- A body that is read to its end is a sequence of instructions. -/
theorem parseDirectCallsFrom_sound (rounds : Nat) : ∀ {data : List UInt8} {seen calls : List UInt32},
    parseDirectCallsFrom rounds data seen = .ok calls →
    ∃ targets, calls = seen ++ targets ∧ InstructionSequence targets data := by
  induction rounds with
  | zero =>
    intro data seen calls h
    cases data with
    | nil => exact ⟨[], by rw [List.append_nil]; exact (Except.ok.inj h).symm, .nil⟩
    | cons opcode data => cases h
  | succ rounds ih =>
    intro data seen calls h
    cases data with
    | nil => exact ⟨[], by rw [List.append_nil]; exact (Except.ok.inj h).symm, .nil⟩
    | cons opcode data =>
      rw [parseDirectCallsFrom, bind_ok] at h
      obtain ⟨⟨target, rest⟩, hfirst, hrest⟩ := h
      obtain ⟨imm, rfl, himm⟩ := parseWasmInstruction_sound hfirst
      obtain ⟨targets, rfl, hsequence⟩ := ih hrest
      exact ⟨target.toList ++ targets, List.append_assoc .., .cons himm hsequence⟩

/-- With a round for every byte the number of rounds does not matter: the loop never runs out. -/
theorem parseDirectCallsFrom_rounds (rounds : Nat) : ∀ {more : Nat} {data : List UInt8} {seen : List UInt32},
    data.length ≤ rounds → rounds ≤ more →
    parseDirectCallsFrom more data seen = parseDirectCallsFrom rounds data seen := by
  induction rounds with
  | zero =>
    intro more data seen hlength _
    rw [List.length_eq_zero_iff.mp (Nat.le_zero.mp hlength)]
    cases more with
    | zero => rfl
    | succ more => rfl
  | succ rounds ih =>
    intro more data seen hlength hmore
    cases data with
    | nil =>
      cases more with
      | zero => rfl
      | succ more => rfl
    | cons opcode data =>
      obtain ⟨more, rfl⟩ : ∃ n, more = n + 1 := ⟨more - 1, by omega⟩
      rw [parseDirectCallsFrom, parseDirectCallsFrom]
      cases hfirst : parseWasmInstruction opcode data with
      | error err => rfl
      | ok first =>
        obtain ⟨imm, rfl, _⟩ := parseWasmInstruction_sound hfirst
        rw [List.length_cons, List.length_append] at hlength
        exact ih (by omega) (by omega)

/-- Instructions at the start of a body are gone through, and reading goes on after them. -/
theorem parseDirectCalls_append {targets : List UInt32} {body : List UInt8} (h : InstructionSequence targets body)
    (rest : List UInt8) (seen : List UInt32) :
    parseDirectCallsFrom (body ++ rest).length (body ++ rest) seen =
      parseDirectCallsFrom rest.length rest (seen ++ targets) := by
  induction h generalizing seen with
  | nil => rw [List.nil_append, List.append_nil]
  | @cons opcode target imm targets body hfirst _ ih =>
    rw [List.cons_append, List.length_cons, parseDirectCallsFrom, List.append_assoc,
      parseWasmInstruction_complete hfirst, ← List.append_assoc seen, ← ih]
    refine parseDirectCallsFrom_rounds _ le_rfl ?_
    simp only [List.length_append]
    omega

section Errors

theorem invalidImmediate_ne (opcode : UInt8) :
    invalidWasmInstructionImmediate opcode ≠ newError "invalid wasm instruction" := by
  intro h
  have htext := congrArg (fun err => err.text.toList.take 9) h
  simp only [invalidWasmInstructionImmediate, newError, String.toList_append] at htext
  rw [List.take_append_of_le_length (by decide)] at htext
  exact absurd htext (by decide)

theorem wasmError_ne {text suffix : String} (htext : text = "wasm " ++ suffix) :
    newError text ≠ newError "invalid wasm instruction" := by
  intro h
  have htake := congrArg (fun err => err.text.toList.take 1) h
  simp only [newError, htext, String.toList_append] at htake
  rw [List.take_append_of_le_length (by decide)] at htake
  exact absurd htake (by decide)

theorem readAllowedMiscInstruction_ne (data : List UInt8) :
    readAllowedMiscInstruction data ≠ .error (newError "invalid wasm instruction") := by
  intro h
  rw [readAllowedMiscInstruction, bind_err] at h
  rcases h with h | ⟨⟨opcode, rest⟩, _, h⟩
  · exact invalidImmediate_ne _ (require_err.mp h).2
  · dsimp only at h
    split_ifs at h
    · cases h
    · rw [bind_err] at h
      rcases h with h | ⟨_, _, h⟩
      · exact invalidImmediate_ne _ (require_err.mp h).2
      · cases h
    · refine @wasmError_ne _ ("miscellaneous opcode 0xfc/" ++ itoa opcode.toNat ++ " is not allowed in version 1") ?_
        (Except.error.inj h)
      rw [String.append_assoc, String.append_assoc]
      rfl

/-- No instruction fails with the error of a loop that runs out of rounds. -/
theorem parseWasmInstruction_ne (opcode : UInt8) (data : List UInt8) :
    parseWasmInstruction opcode data ≠ .error (newError "invalid wasm instruction") := by
  rw [parseWasmInstruction_eq]
  generalize opcodeClass opcode = class_
  intro h
  by_cases hskips : class_.skips = true
  · rw [readImmediates_eq hskips, bind_err] at h
    rcases h with h | ⟨_, _, h⟩
    · exact invalidImmediate_ne _ (require_err.mp h).2
    · cases h
  · cases class_ with
    | indirect => exact absurd (Except.error.inj h) (by decide)
    | reference => exact absurd (Except.error.inj h) (by decide)
    | unknown =>
      refine @wasmError_ne _ ("opcode " ++ opcodeText opcode ++ " is not allowed in version 1") ?_ (Except.error.inj h)
      rw [String.append_assoc, String.append_assoc]
      rfl
    | misc =>
      rw [readImmediates, bind_err] at h
      rcases h with h | ⟨_, _, h⟩
      · exact readAllowedMiscInstruction_ne data h
      · cases h
    | call =>
      rw [readImmediates, bind_err] at h
      rcases h with h | ⟨_, _, h⟩
      · exact invalidImmediate_ne _ (require_err.mp h).2
      · cases h
    | plain | block | indexed | branchTable | select | memory | i32Const | i64Const | f32Const | f64Const | refNull =>
      exact absurd rfl hskips

theorem parseDirectCallsFrom_ne (rounds : Nat) : ∀ {data : List UInt8} {seen : List UInt32}, data.length ≤ rounds →
    parseDirectCallsFrom rounds data seen ≠ .error (newError "invalid wasm instruction") := by
  induction rounds with
  | zero =>
    intro data seen hlength
    rw [List.length_eq_zero_iff.mp (Nat.le_zero.mp hlength)]
    exact fun h => (nomatch h)
  | succ rounds ih =>
    intro data seen hlength
    cases data with
    | nil => exact fun h => (nomatch h)
    | cons opcode data =>
      rw [parseDirectCallsFrom, ne_eq, bind_err, not_or]
      refine ⟨parseWasmInstruction_ne opcode data, ?_⟩
      rintro ⟨⟨target, rest⟩, hfirst, hrest⟩
      obtain ⟨imm, rfl, _⟩ := parseWasmInstruction_sound hfirst
      rw [List.length_cons, List.length_append] at hlength
      exact ih (by omega) hrest

end Errors

/-- `parseWasmDirectCalls` on every byte string: a sequence of allowed instructions gives the targets of
its calls; where an instruction should start and none of them does, there is an error, so that nothing
else is accepted; and the loop always ends. -/
theorem parseWasmDirectCalls_exact :
    (∀ targets body, InstructionSequence targets body → parseWasmDirectCalls body = .ok targets) ∧
    (∀ targets body opcode rest, InstructionSequence targets body →
      (¬∃ target imm rest', rest = imm ++ rest' ∧ Immediates opcode target imm) →
      ∃ err, parseWasmDirectCalls (body ++ opcode :: rest) = .error err) ∧
    (∀ body targets, parseWasmDirectCalls body = .ok targets → InstructionSequence targets body) ∧
    ∀ body, parseWasmDirectCalls body ≠ .error (newError "invalid wasm instruction") := by
  refine ⟨fun targets body h => ?_, fun targets body opcode rest h hnone => ?_, fun body targets h => ?_, fun body => ?_⟩
  · have := parseDirectCalls_append h [] []
    rw [List.append_nil] at this
    exact this
  · rw [parseWasmDirectCalls, parseDirectCalls_append h, List.length_cons, parseDirectCallsFrom]
    cases hfirst : parseWasmInstruction opcode rest with
    | error err => exact ⟨err, rfl⟩
    | ok first =>
      obtain ⟨imm, hrest, himm⟩ := parseWasmInstruction_sound hfirst
      exact absurd ⟨first.1, imm, first.2, hrest, himm⟩ hnone
  · obtain ⟨calls, rfl, hsequence⟩ := parseDirectCallsFrom_sound _ h
    exact hsequence
  · exact parseDirectCallsFrom_ne _ le_rfl

-- a branch table whose labels are call opcodes, and then a call
example : parseWasmDirectCalls [0x0e, 0x02, 0x10, 0x10, 0x11, 0x10, 0x85, 0x00, 0x0b] = .ok [5] := by decide

end ChainLab.Contracts
