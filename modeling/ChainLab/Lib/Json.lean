import ChainLab.Lib.GoMap
import ChainLab.Lib.GoStrings

/-! `encoding/json` output: the text `json.Marshal` writes for strings, integers, slices, maps and
structs. -/

namespace ChainLab.Lib

/-- Encoded JSON, as the runes of the document. -/
abbrev JsonText := List Char

private def hexQuad (n : Nat) : List Char :=
  [Nat.digitChar (n / 4096 % 16), Nat.digitChar (n / 256 % 16), Nat.digitChar (n / 16 % 16),
    Nat.digitChar (n % 16)]

/-- The escape of one rune, with HTML escaping on as in `json.Marshal`. -/
def jsonRune (c : Char) : List Char :=
  if c = '"' then ['\\', '"'] else if c = '\\' then ['\\', '\\']
  else if c.toNat = 8 then ['\\', 'b'] else if c.toNat = 12 then ['\\', 'f']
  else if c = '\n' then ['\\', 'n'] else if c = '\r' then ['\\', 'r'] else if c = '\t' then ['\\', 't']
  else if c.toNat < 32 ∨ c = '<' ∨ c = '>' ∨ c = '&' ∨ c.toNat = 0x2028 ∨ c.toNat = 0x2029 then
    '\\' :: 'u' :: hexQuad c.toNat
  else [c]

def jsonString (s : String) : JsonText := '"' :: (runes s).flatMap jsonRune ++ ['"']

def jsonUint (v : UInt64) : JsonText := Nat.toDigits 10 v.toNat

def jsonInt (v : Int64) : JsonText :=
  if v.toInt < 0 then '-' :: Nat.toDigits 10 v.toInt.natAbs else Nat.toDigits 10 v.toInt.natAbs

def jsonBool (b : Bool) : JsonText := if b then "true".toList else "false".toList

def jsonArray (items : List JsonText) : JsonText := '[' :: [','].intercalate items ++ [']']

/-- A struct: its fields in declaration order, without those dropped by `omitempty`. -/
def jsonObject (fields : List (Option (String × JsonText))) : JsonText :=
  '\x7b' :: [','].intercalate (fields.filterMap fun field =>
    field.map fun f => jsonString f.1 ++ ':' :: f.2) ++ ['\x7d']

def jsonField (name : String) (text : JsonText) : Option (String × JsonText) := some (name, text)

/-- A field tagged `omitempty`. -/
def jsonOmitEmpty (empty : Bool) (name : String) (text : JsonText) : Option (String × JsonText) :=
  if empty then none else some (name, text)

/-- A map with string keys, written in key order. -/
def jsonMap {ν : Type} [Inhabited ν] (value : ν → JsonText) (m : GoMap String ν) : JsonText :=
  jsonObject (m.sortedKeys.map fun k => jsonField k (value (GoMap.get m k)))

/-- The UTF-8 bytes of a document. -/
def utf8Bytes (text : List Char) : List UInt8 := text.flatMap String.utf8EncodeChar

theorem utf8Bytes_injective : Function.Injective utf8Bytes := by
  intro text other h
  have hencode : text.utf8Encode = other.utf8Encode := congrArg List.toByteArray h
  rw [← String.toByteArray_ofList, ← String.toByteArray_ofList, String.toByteArray_inj, String.ofList_inj] at hencode
  exact hencode

theorem length_utf8Bytes_of_ascii {text : List Char} (h : ∀ c ∈ text, c.toNat < 128) :
    (utf8Bytes text).length = text.length := by
  induction text with
  | nil => rfl
  | cons c rest ih =>
    have hone : c.utf8Size = 1 := by
      rw [Char.utf8Size_eq_one_iff, UInt32.le_iff_toNat_le]
      have hc : c.val.toNat < 128 := h c List.mem_cons_self
      have hbound : (127 : UInt32).toNat = 127 := rfl
      omega
    have hrest := ih fun d hd => h d (List.mem_cons_of_mem c hd)
    unfold utf8Bytes at hrest ⊢
    rw [List.flatMap_cons, List.length_append, String.length_utf8EncodeChar, hone, hrest, List.length_cons]
    omega

theorem length_utf8Bytes (text : List Char) : (utf8Bytes text).length = len (String.ofList text) := by
  unfold len
  rw [← String.size_toByteArray, String.toByteArray_ofList]
  exact (List.size_toByteArray).symm

theorem length_le_len (s : String) : s.toList.length ≤ len s := by
  rw [← String.ofList_toList (s := s), ← length_utf8Bytes, String.toList_ofList]
  induction s.toList with
  | nil => exact le_rfl
  | cons c rest ih =>
    unfold utf8Bytes at ih ⊢
    rw [List.flatMap_cons, List.length_append, String.length_utf8EncodeChar, List.length_cons]
    have := c.utf8Size_pos
    omega

/-! ### Reading strings back -/

/-- The rune that a mark after a backslash stands for. -/
private def markedRune : Char → Char
  | 'b' => Char.ofNat 8
  | 'f' => Char.ofNat 12
  | 'n' => '\n'
  | 'r' => '\r'
  | 't' => '\t'
  | c => c

private def digitOf (c : Char) : Nat := (hexDigitValue c).getD 0

/-- Read one rune of a string back, with what follows it. -/
private def readRune : List Char → Option (Char × List Char)
  | '\\' :: 'u' :: a :: b :: c :: d :: rest =>
    some (Char.ofNat (digitOf a * 4096 + digitOf b * 256 + digitOf c * 16 + digitOf d), rest)
  | '\\' :: mark :: rest => some (markedRune mark, rest)
  | c :: rest => some (c, rest)
  | [] => none

private theorem digitOf_digitChar {n : Nat} : digitOf (Nat.digitChar (n % 16)) = n % 16 := by
  have hall : ∀ m < 16, digitOf (Nat.digitChar m) = m := by decide
  exact hall _ (Nat.mod_lt _ (by decide))

private theorem readRune_jsonRune (c : Char) (rest : List Char) :
    readRune (jsonRune c ++ rest) = some (c, rest) := by
  have hof : ∀ n, c.toNat = n → Char.ofNat n = c := fun n hn => hn ▸ Char.ofNat_toNat c
  unfold jsonRune
  split_ifs with h1 h2 h3 h4 h5 h6 h7 h8
  · rw [h1]; rfl
  · rw [h2]; rfl
  · rw [← hof _ h3]; rfl
  · rw [← hof _ h4]; rfl
  · rw [h5]; rfl
  · rw [h6]; rfl
  · rw [h7]; rfl
  · have hsmall : c.toNat < 65536 := by
      obtain h | rfl | rfl | rfl | h | h := h8
      · omega
      · decide
      · decide
      · decide
      · omega
      · omega
    have hread : readRune ('\\' :: 'u' :: hexQuad c.toNat ++ rest) = some (Char.ofNat c.toNat, rest) := by
      simp only [hexQuad, List.cons_append, List.nil_append, readRune, digitOf_digitChar]
      congr 3
      omega
    rw [hread, hof _ rfl]
  · rw [List.singleton_append]
    unfold readRune
    split
    · rename_i heq
      exact absurd (List.cons.inj heq).1 h2
    · rename_i heq
      exact absurd (List.cons.inj heq).1 h2
    · rename_i heq
      obtain ⟨rfl, rfl⟩ := List.cons.inj heq
      rfl
    · rename_i heq
      cases heq

private theorem jsonRune_ne_quote (c : Char) (rest rest' : List Char) : jsonRune c ++ rest ≠ '"' :: rest' := by
  unfold jsonRune
  split_ifs with h1 <;> simp [h1]

/-- The runes of a string end at its closing quote. -/
private theorem jsonRunes_separate {s t : List Char} {r r' : List Char}
    (h : s.flatMap jsonRune ++ '"' :: r = t.flatMap jsonRune ++ '"' :: r') : s = t ∧ r = r' := by
  induction s generalizing t with
  | nil =>
    cases t with
    | nil => exact ⟨rfl, (List.cons.inj h).2⟩
    | cons d ds =>
      rw [List.flatMap_cons, List.append_assoc] at h
      exact absurd h.symm (jsonRune_ne_quote d _ _)
  | cons c cs ih =>
    cases t with
    | nil =>
      rw [List.flatMap_cons, List.append_assoc] at h
      exact absurd h (jsonRune_ne_quote c _ _)
    | cons d ds =>
      rw [List.flatMap_cons, List.append_assoc, List.flatMap_cons, List.append_assoc] at h
      have hread := congrArg readRune h
      rw [readRune_jsonRune, readRune_jsonRune] at hread
      obtain ⟨rfl, hrest⟩ := Prod.mk.inj (Option.some.inj hread)
      obtain ⟨rfl, hr⟩ := ih hrest
      exact ⟨rfl, hr⟩

/-- A string is read back from what starts with it. -/
theorem jsonString_append_inj {s t : String} {r r' : JsonText} (h : jsonString s ++ r = jsonString t ++ r') :
    s = t ∧ r = r' := by
  unfold jsonString at h
  simp only [runes_eq, List.cons_append, List.append_assoc, List.nil_append, List.cons.injEq, true_and] at h
  obtain ⟨hs, hr⟩ := jsonRunes_separate h
  exact ⟨String.toList_inj.mp hs, hr⟩

end ChainLab.Lib
