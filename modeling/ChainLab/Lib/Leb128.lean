import Mathlib

/-! LEB128 numbers, as the WebAssembly binary format defines them, and readers of byte strings that follow
a grammar. -/

namespace ChainLab.Lib

/-- A reader follows a grammar: it takes a prefix that the grammar derives, and whatever prefix of its
input is derived, it takes that. -/
def Reads {α : Type} (derives : α → List UInt8 → Prop) (reader : List UInt8 → Option (α × List UInt8)) : Prop :=
  ∀ data value rest, reader data = some (value, rest) ↔ ∃ bytes, data = bytes ++ rest ∧ derives value bytes

/-- `uN`: seven bits a byte, the lowest first, with the high bit on every byte but the last. -/
inductive UnsignedLEB : Nat → Nat → List UInt8 → Prop
  | last {bits : Nat} {n : UInt8} (hlast : n.toNat < 128) (hbits : n.toNat < 2 ^ bits) :
    UnsignedLEB bits n.toNat [n]
  | more {bits m : Nat} {n : UInt8} {rest : List UInt8} (hmore : 128 ≤ n.toNat) (hbits : 7 < bits)
    (hrest : UnsignedLEB (bits - 7) m rest) : UnsignedLEB bits (128 * m + (n.toNat - 128)) (n :: rest)

/-- `sN`: the last byte is extended by its sign bit. -/
inductive SignedLEB : Nat → Int → List UInt8 → Prop
  | positive {bits : Nat} {n : UInt8} (hlast : n.toNat < 64) (hbits : n.toNat < 2 ^ (bits - 1)) :
    SignedLEB bits n.toNat [n]
  | negative {bits : Nat} {n : UInt8} (hsign : 64 ≤ n.toNat) (hlast : n.toNat < 128)
    (hbits : 128 ≤ n.toNat + 2 ^ (bits - 1)) : SignedLEB bits (n.toNat - 128) [n]
  | more {bits : Nat} {m : Int} {n : UInt8} {rest : List UInt8} (hmore : 128 ≤ n.toNat) (hbits : 7 < bits)
    (hrest : SignedLEB (bits - 7) m rest) : SignedLEB bits (128 * m + (n.toNat - 128)) (n :: rest)

theorem UnsignedLEB.ne_nil {bits v : Nat} {bytes : List UInt8} (h : UnsignedLEB bits v bytes) : bytes ≠ [] := by
  cases h with
  | last => exact List.cons_ne_nil _ _
  | more => exact List.cons_ne_nil _ _

theorem UnsignedLEB.length_pos {bits v : Nat} {bytes : List UInt8} (h : UnsignedLEB bits v bytes) :
    1 ≤ bytes.length :=
  List.length_pos_of_ne_nil h.ne_nil

theorem unsignedLEB_cons {bits v : Nat} {n : UInt8} {rest : List UInt8} : UnsignedLEB bits v (n :: rest) ↔
    (n.toNat < 128 ∧ n.toNat < 2 ^ bits ∧ rest = [] ∧ v = n.toNat) ∨
    (128 ≤ n.toNat ∧ 7 < bits ∧ ∃ m, UnsignedLEB (bits - 7) m rest ∧ v = 128 * m + (n.toNat - 128)) := by
  constructor
  · intro h
    cases h with
    | last hlast hbits => exact .inl ⟨hlast, hbits, rfl, rfl⟩
    | @more _ m _ _ hmore hbits hrest => exact .inr ⟨hmore, hbits, m, hrest, rfl⟩
  · rintro (⟨hlast, hbits, rfl, hv⟩ | ⟨hmore, hbits, m, hrest, hv⟩)
    · subst hv
      exact .last hlast hbits
    · rw [hv]
      exact .more hmore hbits hrest

/-- An unsigned number at the start of a byte string, by its first byte. -/
theorem unsignedLEB_first {bits : Nat} {b : UInt8} {data rest : List UInt8} {P : Nat → Prop} :
    (∃ bytes m, b :: data = bytes ++ rest ∧ UnsignedLEB bits m bytes ∧ P m) ↔
    (b.toNat < 128 ∧ b.toNat < 2 ^ bits ∧ data = rest ∧ P b.toNat) ∨
    (128 ≤ b.toNat ∧ 7 < bits ∧ ∃ bytes m, data = bytes ++ rest ∧ UnsignedLEB (bits - 7) m bytes ∧
      P (128 * m + (b.toNat - 128))) := by
  constructor
  · rintro ⟨bytes, m, hdata, hleb, hP⟩
    cases bytes with
    | nil => exact absurd rfl hleb.ne_nil
    | cons n bytes =>
      obtain ⟨rfl, hrest⟩ := List.cons.inj hdata
      rcases unsignedLEB_cons.mp hleb with ⟨hlast, hbits, rfl, hm⟩ | ⟨hmore, hbits, m', hleb', hm⟩
      · exact .inl ⟨hlast, hbits, hrest, hm ▸ hP⟩
      · exact .inr ⟨hmore, hbits, bytes, m', hrest, hleb', hm ▸ hP⟩
  · rintro (⟨hlast, hbits, rfl, hP⟩ | ⟨hmore, hbits, bytes, m, rfl, hleb, hP⟩)
    · exact ⟨[b], b.toNat, rfl, .last hlast hbits, hP⟩
    · exact ⟨b :: bytes, _, rfl, .more hmore hbits hleb, hP⟩

theorem SignedLEB.ne_nil {bits : Nat} {v : Int} {bytes : List UInt8} (h : SignedLEB bits v bytes) : bytes ≠ [] := by
  cases h with
  | positive => exact List.cons_ne_nil _ _
  | negative => exact List.cons_ne_nil _ _
  | more => exact List.cons_ne_nil _ _

/-- A signed number at the start of a byte string, by its first byte. -/
theorem signedLEB_first {bits : Nat} {b : UInt8} {data rest : List UInt8} :
    (∃ bytes, b :: data = bytes ++ rest ∧ ∃ v, SignedLEB bits v bytes) ↔
    (b.toNat < 128 ∧ (b.toNat < 64 ∧ b.toNat < 2 ^ (bits - 1) ∨ 64 ≤ b.toNat ∧ 128 ≤ b.toNat + 2 ^ (bits - 1)) ∧
      data = rest) ∨
    (128 ≤ b.toNat ∧ 7 < bits ∧ ∃ bytes, data = bytes ++ rest ∧ ∃ v, SignedLEB (bits - 7) v bytes) := by
  constructor
  · rintro ⟨bytes, hdata, v, hleb⟩
    cases hleb with
    | positive hlast hbits =>
      obtain ⟨rfl, hrest⟩ := List.cons.inj hdata
      exact .inl ⟨by omega, .inl ⟨hlast, hbits⟩, hrest⟩
    | negative hsign hlast hbits =>
      obtain ⟨rfl, hrest⟩ := List.cons.inj hdata
      exact .inl ⟨hlast, .inr ⟨hsign, hbits⟩, hrest⟩
    | more hmore hbits hleb =>
      obtain ⟨rfl, hrest⟩ := List.cons.inj hdata
      exact .inr ⟨hmore, hbits, _, hrest, _, hleb⟩
  · rintro (⟨hlast, ⟨hlow, hbits⟩ | ⟨hsign, hbits⟩, rfl⟩ | ⟨hmore, hbits, bytes, rfl, v, hleb⟩)
    · exact ⟨[b], rfl, _, .positive hlow hbits⟩
    · exact ⟨[b], rfl, _, .negative hsign hlast hbits⟩
    · exact ⟨b :: bytes, rfl, _, .more hmore hbits hleb⟩

end ChainLab.Lib
