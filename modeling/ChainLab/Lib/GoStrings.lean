import Mathlib

/-! The parts of Go's `strings`, `strconv` and `encoding/hex` that consensus code reads text with. Text
is valid UTF-8, so a string is its list of runes and `len` is its UTF-8 size. -/

namespace ChainLab.Lib

/-- `unicode.IsSpace`. -/
def isSpace (c : Char) : Bool :=
  c = ' ' || (9 ≤ c.toNat && c.toNat ≤ 13) || c.toNat = 0x85 || c.toNat = 0xA0 || c.toNat = 0x1680 ||
    (0x2000 ≤ c.toNat && c.toNat ≤ 0x200A) || c.toNat = 0x2028 || c.toNat = 0x2029 ||
    c.toNat = 0x202F || c.toNat = 0x205F || c.toNat = 0x3000

/-- `unicode.ToLower` on ASCII, and on the two other runes with an ASCII lower case (U+0130 and the
Kelvin sign). The remaining runes keep their case: none of them lowers to ASCII. -/
def runeToLower (c : Char) : Char :=
  if c.toNat = 0x130 then 'i' else if c.toNat = 0x212A then 'k' else c.toLower

/-- The representative of a rune under simple case folding: ASCII letters, the Kelvin sign and the
long s. -/
def runeFold (c : Char) : Char :=
  if c.toNat = 0x212A then 'k' else if c.toNat = 0x17F then 's' else c.toLower

/-- `len(s)`. -/
def len (s : String) : Nat := s.utf8ByteSize

/-- The runes of a string: `String.toList`. Where all bytes are ASCII they are read off the bytes, which evaluates
faster than decoding them. -/
def runes (s : String) : List Char :=
  let bytes := s.toByteArray.data.toList
  if bytes.all (· < 128) then bytes.map fun b => Char.ofNat b.toNat else s.toList

/-- `strings.TrimSpace`. -/
def trimSpace (s : String) : String :=
  String.ofList (((runes s).dropWhile isSpace).rdropWhile isSpace)

/-- `strings.ToLower`. -/
def toLower (s : String) : String := String.ofList ((runes s).map runeToLower)

/-- `strings.EqualFold`. -/
def equalFold (s t : String) : Bool := (runes s).map runeFold = (runes t).map runeFold

/-- `strings.HasPrefix`. -/
def hasPrefix (s p : String) : Bool := (runes p).isPrefixOf (runes s)

/-- `strings.HasSuffix`. -/
def hasSuffix (s p : String) : Bool := (runes p).isSuffixOf (runes s)

/-- `s[n:]` at a rune boundary. -/
def dropRunes (n : Nat) (s : String) : String := String.ofList ((runes s).drop n)

/-- `strings.TrimPrefix`. -/
def trimPrefix (s p : String) : String :=
  if hasPrefix s p then dropRunes (runes p).length s else s

/-- `strings.TrimSuffix`. -/
def trimSuffix (s p : String) : String :=
  if hasSuffix s p then String.ofList ((runes s).take ((runes s).length - (runes p).length)) else s

/-- `strings.Split` at a one-rune separator. -/
def split (s : String) (sep : Char) : List String := ((runes s).splitOn sep).map String.ofList

/-- `strings.Join` with a one-rune separator. -/
def join (parts : List String) (sep : Char) : String :=
  String.ofList ([sep].intercalate (parts.map runes))

/-- `strings.SplitN(s, sep, 2)`: the parts around the first separator, if there is one. -/
def cut (s : String) (sep : Char) : Option (String × String) :=
  if sep ∈ runes s then
    some (String.ofList ((runes s).takeWhile (· ≠ sep)), String.ofList (((runes s).dropWhile (· ≠ sep)).drop 1))
  else none

/-- `strconv.FormatUint(v, 10)`. -/
def formatUint (v : UInt64) : String := String.ofList (Nat.toDigits 10 v.toNat)

/-- `strconv.Itoa` of a length. -/
def itoa (n : Nat) : String := String.ofList (Nat.toDigits 10 n)

/-- `strconv.ParseUint(s, 10, 64)`. -/
def parseUint (s : String) : Option UInt64 :=
  if runes s ≠ [] ∧ (runes s).all Char.isDigit ∧ Nat.ofDigitChars 10 (runes s) 0 < 2 ^ 64 then
    some (UInt64.ofNat (Nat.ofDigitChars 10 (runes s) 0))
  else none

/-- The value of a hexadecimal digit of either case. -/
def hexDigitValue (c : Char) : Option Nat :=
  if '0' ≤ c ∧ c ≤ '9' then some (c.toNat - '0'.toNat)
  else if 'a' ≤ c ∧ c ≤ 'f' then some (c.toNat - 'a'.toNat + 10)
  else if 'A' ≤ c ∧ c ≤ 'F' then some (c.toNat - 'A'.toNat + 10)
  else none

/-- `hex.DecodeString` on runes. -/
def hexDecode : List Char → Option (List UInt8)
  | [] => some []
  | [_] => none
  | hi :: lo :: rest => do
    let high ← hexDigitValue hi
    let low ← hexDigitValue lo
    let bytes ← hexDecode rest
    return UInt8.ofNat (16 * high + low) :: bytes

/-- `hex.EncodeToString` as runes. -/
def hexEncode (bytes : List UInt8) : List Char :=
  bytes.flatMap fun b => [Nat.digitChar (b.toNat / 16), Nat.digitChar (b.toNat % 16)]

/-- `%q` of a string. -/
def quote (s : String) : String :=
  "\"" ++ String.join ((runes s).map fun c =>
    if c = '"' then "\\\"" else if c = '\\' then "\\\\"
    else if c = '\n' then "\\n" else if c = '\r' then "\\r" else if c = '\t' then "\\t"
    else if c.toNat < 32 ∨ c.toNat = 127 then
      "\\x" ++ String.ofList [Nat.digitChar (c.toNat / 16), Nat.digitChar (c.toNat % 16)]
    else c.toString) ++ "\""

/-! ### Runes -/

private theorem utf8EncodeChar_ofNat : ∀ b : UInt8, b < 128 → String.utf8EncodeChar (Char.ofNat b.toNat) = [b] := by
  decide +kernel

@[simp] theorem runes_eq (s : String) : runes s = s.toList := by
  unfold runes
  dsimp only
  split
  · next hascii =>
    simp only [List.all_eq_true, decide_eq_true_eq] at hascii
    have hbytes : (s.toByteArray.data.toList.map fun b => Char.ofNat b.toNat).flatMap String.utf8EncodeChar =
        s.toByteArray.data.toList := by
      rw [List.flatMap_map, List.flatMap_congr fun b hb => utf8EncodeChar_ofNat b (hascii b hb),
        List.flatMap_singleton']
    have hs : String.ofList (s.toByteArray.data.toList.map fun b => Char.ofNat b.toNat) = s := by
      rw [← String.toByteArray_inj, String.toByteArray_ofList, List.utf8Encode, hbytes]
      apply ByteArray.ext
      rw [List.data_toByteArray, Array.toArray_toList]
    conv_rhs => rw [← hs, String.toList_ofList]
  · rfl

/-! ### Case and white space -/

private theorem toNat_runeToLower (c : Char) :
    (runeToLower c).toNat = if c.toNat = 0x130 then 105 else if c.toNat = 0x212A then 107
      else if 65 ≤ c.toNat ∧ c.toNat ≤ 90 then c.toNat + 32 else c.toNat := by
  unfold runeToLower
  split
  · rfl
  · split
    · rfl
    · have hle : (c.val ≥ 'A'.val ∧ c.val ≤ 'Z'.val) ↔ 65 ≤ c.toNat ∧ c.toNat ≤ 90 := by
        simp only [ge_iff_le, UInt32.le_iff_toNat_le]; rfl
      unfold Char.toLower
      by_cases h : 65 ≤ c.toNat ∧ c.toNat ≤ 90
      · rw [dif_pos (hle.mpr h), if_pos h]
        change (c.val + 32).toNat = c.val.toNat + 32
        rw [UInt32.toNat_add]
        have : c.val.toNat ≤ 90 := h.2
        change (c.val.toNat + 32) % 2 ^ 32 = _
        omega
      · rw [dif_neg (mt hle.mp h), if_neg h]

private theorem runeToLower_idem (c : Char) : runeToLower (runeToLower c) = runeToLower c := by
  apply Char.toNat_inj.mp
  rw [toNat_runeToLower, toNat_runeToLower]
  split_ifs <;> omega

private theorem isSpace_eq (c : Char) : isSpace c = decide (c.toNat = 32 ∨ (9 ≤ c.toNat ∧ c.toNat ≤ 13) ∨
    c.toNat = 0x85 ∨ c.toNat = 0xA0 ∨ c.toNat = 0x1680 ∨ (0x2000 ≤ c.toNat ∧ c.toNat ≤ 0x200A) ∨
    c.toNat = 0x2028 ∨ c.toNat = 0x2029 ∨ c.toNat = 0x202F ∨ c.toNat = 0x205F ∨ c.toNat = 0x3000) := by
  have : (c = ' ') ↔ c.toNat = 32 := ⟨fun h => h ▸ rfl, fun h => Char.toNat_inj.mp h⟩
  simp only [isSpace, this]
  simp only [Bool.decide_or, Bool.decide_and, Bool.or_assoc]

private theorem isSpace_runeToLower (c : Char) : isSpace (runeToLower c) = isSpace c := by
  rw [isSpace_eq, isSpace_eq, toNat_runeToLower, decide_eq_decide]
  split_ifs <;> omega

@[simp] theorem toLower_toLower (s : String) : toLower (toLower s) = toLower s := by
  simp only [toLower, runes_eq, String.toList_ofList, List.map_map]
  congr 1
  exact List.map_congr_left fun c _ => runeToLower_idem c

theorem toLower_eq_empty {s : String} : toLower s = "" ↔ s = "" := by
  rw [toLower, runes_eq, String.ofList_eq_empty_iff, List.map_eq_nil_iff, String.toList_eq_nil_iff]

private theorem dropWhile_map_lower (l : List Char) :
    (l.map runeToLower).dropWhile isSpace = (l.dropWhile isSpace).map runeToLower := by
  rw [List.dropWhile_map]
  congr 2
  funext c
  exact isSpace_runeToLower c

theorem trimSpace_toLower (s : String) : trimSpace (toLower s) = toLower (trimSpace s) := by
  simp only [trimSpace, toLower, runes_eq, String.toList_ofList, List.rdropWhile, dropWhile_map_lower,
    ← List.map_reverse]

@[simp] theorem trimSpace_trimSpace (s : String) : trimSpace (trimSpace s) = trimSpace s := by
  simp only [trimSpace, runes_eq, String.toList_ofList]
  congr 1
  generalize hl : s.toList.dropWhile isSpace = l
  have hhead : ∀ h : l ≠ [], isSpace (l.head h) = false := by
    subst hl
    intro h
    simpa using List.head_dropWhile_not isSpace h
  have hdrop : (l.rdropWhile isSpace).dropWhile isSpace = l.rdropWhile isSpace := by
    cases hr : l.rdropWhile isSpace with
    | nil => rfl
    | cons c rest =>
      obtain ⟨tail, htail⟩ := List.rdropWhile_prefix isSpace l
      rw [hr] at htail
      have hc := hhead (by rw [← htail]; simp)
      simp only [← htail, List.cons_append, List.head_cons] at hc
      rw [List.dropWhile_cons_of_neg (by simp [hc])]
  rw [hdrop, List.rdropWhile_idempotent]

/-- Trimming and lowering a text that is already trimmed and lowered changes nothing. -/
@[simp] theorem toLower_trimSpace_idem (s : String) :
    toLower (trimSpace (toLower (trimSpace s))) = toLower (trimSpace s) := by
  rw [trimSpace_toLower, trimSpace_trimSpace, toLower_toLower]

/-! ### Decimal numbers -/

theorem parseUint_formatUint (v : UInt64) : parseUint (formatUint v) = some v := by
  have hdigits : (Nat.toDigits 10 v.toNat).all Char.isDigit = true :=
    List.all_eq_true.mpr fun c hc => Nat.isDigit_of_mem_toDigits (by decide) (by decide) hc
  simp only [parseUint, formatUint, runes_eq, String.toList_ofList, Nat.ofDigitChars_ten_toDigits]
  rw [if_pos ⟨Nat.toDigits_ne_nil, hdigits, v.toNat_lt⟩, UInt64.ofNat_toNat]

theorem formatUint_ne_empty (v : UInt64) : formatUint v ≠ "" := by
  intro h
  have := congrArg String.toList h
  simp [formatUint, Nat.toDigits_ne_nil] at this

theorem trimSpace_of_no_space {s : String} (h : ∀ c ∈ s.toList, isSpace c = false) : trimSpace s = s := by
  have hdrop : ∀ l : List Char, (∀ c ∈ l, isSpace c = false) → l.dropWhile isSpace = l := by
    intro l hl
    cases l with
    | nil => rfl
    | cons c rest => rw [List.dropWhile_cons_of_neg (by simp [hl c (by simp)])]
  unfold trimSpace List.rdropWhile
  rw [runes_eq, hdrop _ h, hdrop _ (fun c hc => h c (List.mem_reverse.mp hc)), List.reverse_reverse,
    String.ofList_toList]

end ChainLab.Lib
