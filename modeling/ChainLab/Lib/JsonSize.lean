import ChainLab.Lib.Json

/-! The sizes of JSON documents in bytes. -/

namespace ChainLab.Lib

/-- `len` of an encoded document. -/
def jsonSize (text : JsonText) : Nat := (utf8Bytes text).length

@[simp] theorem jsonSize_nil : jsonSize [] = 0 := rfl

@[simp] theorem jsonSize_cons (c : Char) (rest : JsonText) : jsonSize (c :: rest) = c.utf8Size + jsonSize rest := by
  rw [jsonSize, utf8Bytes, List.flatMap_cons, List.length_append, String.length_utf8EncodeChar]
  rfl

@[simp] theorem jsonSize_append (text rest : JsonText) : jsonSize (text ++ rest) = jsonSize text + jsonSize rest := by
  rw [jsonSize, utf8Bytes, List.flatMap_append, List.length_append]
  rfl

theorem jsonSize_toList (s : String) : jsonSize s.toList = len s := by
  rw [jsonSize, length_utf8Bytes, String.ofList_toList]

theorem length_le_jsonSize (text : JsonText) : text.length ≤ jsonSize text := by
  induction text with
  | nil => exact le_rfl
  | cons c rest ih =>
    have := c.utf8Size_pos
    rw [jsonSize_cons, List.length_cons]
    omega

/-! ### Strings -/

private theorem utf8Size_quote : ('"').utf8Size = 1 := by decide

/-- An escape is at least as long as the rune it stands for. -/
theorem utf8Size_le_jsonRune (c : Char) : c.utf8Size ≤ jsonSize (jsonRune c) := by
  have hsmall (h : c.toNat < 128) : c.utf8Size = 1 := by
    rw [Char.utf8Size_eq_one_iff, UInt32.le_iff_toNat_le]
    have hc : c.val.toNat < 128 := h
    have hbound : (127 : UInt32).toNat = 127 := rfl
    omega
  have hfour := c.utf8Size_le_four
  have hlong {text : JsonText} (h : 4 ≤ text.length) : c.utf8Size ≤ jsonSize text :=
    hfour.trans (h.trans (length_le_jsonSize text))
  unfold jsonRune
  split_ifs with h1 h2 h3 h4 h5 h6 h7 h8
  · subst h1; decide
  · subst h2; decide
  · rw [hsmall (by omega)]; decide
  · rw [hsmall (by omega)]; decide
  · subst h5; decide
  · subst h6; decide
  · subst h7; decide
  · exact hlong (Nat.le_add_left 4 2)
  · simp

theorem len_le_jsonSize_jsonString (s : String) : len s + 2 ≤ jsonSize (jsonString s) := by
  have hbody : ∀ runes : List Char, jsonSize runes ≤ jsonSize (runes.flatMap jsonRune) := by
    intro runes
    induction runes with
    | nil => exact le_rfl
    | cons c rest ih =>
      have := utf8Size_le_jsonRune c
      rw [List.flatMap_cons, jsonSize_append, jsonSize_cons]
      omega
  have := hbody s.toList
  rw [jsonSize_toList] at this
  rw [jsonString, runes_eq, List.cons_append, jsonSize_cons, jsonSize_append, jsonSize_cons, jsonSize_nil, utf8Size_quote]
  omega

/-- A rune that is written as it is, in one byte. -/
def VerbatimRune (c : Char) : Prop := jsonRune c = [c] ∧ c.toNat < 128

theorem jsonSize_jsonString_of_verbatim {s : String} (h : ∀ c ∈ s.toList, VerbatimRune c) :
    jsonSize (jsonString s) = len s + 2 := by
  have hbody : s.toList.flatMap jsonRune = s.toList := by
    have hmap : s.toList.flatMap jsonRune = s.toList.flatMap fun c => [c] :=
      List.flatMap_congr fun c hc => (h c hc).1
    rw [hmap, List.flatMap_singleton']
  rw [jsonString, runes_eq, hbody, List.cons_append, jsonSize_cons, jsonSize_append, jsonSize_cons, jsonSize_nil, utf8Size_quote,
    jsonSize_toList]
  omega

/-! ### Arrays and objects -/

/-- The sizes of the items of a list, with a comma between any two of them. -/
theorem jsonSize_intercalate (items : List JsonText) :
    jsonSize ([','].intercalate items) = (items.map jsonSize).sum + (items.length - 1) := by
  have hcomma : (',').utf8Size = 1 := by decide
  cases items with
  | nil => rfl
  | cons first rest =>
    induction rest generalizing first with
    | nil => simp [List.intercalate]
    | cons second rest ih =>
      rw [List.intercalate_cons_cons, jsonSize_append, jsonSize_append, ih second]
      simp only [jsonSize_cons, jsonSize_nil, hcomma, List.map_cons, List.sum_cons, List.length_cons]
      omega

theorem jsonSize_jsonArray (items : List JsonText) :
    jsonSize (jsonArray items) = (items.map jsonSize).sum + (items.length - 1) + 2 := by
  have hopen : ('[').utf8Size = 1 := by decide
  have hclose : (']').utf8Size = 1 := by decide
  rw [jsonArray, List.cons_append, jsonSize_cons, jsonSize_append, jsonSize_intercalate, jsonSize_cons, jsonSize_nil, hopen,
    hclose]
  omega

/-- What a field adds to its object, without the comma. -/
def fieldSize (field : Option (String × JsonText)) : Nat :=
  field.elim 0 fun f => jsonSize (jsonString f.1) + 1 + jsonSize f.2

theorem jsonSize_jsonObject (fields : List (Option (String × JsonText))) :
    jsonSize (jsonObject fields) = (fields.map fieldSize).sum + ((fields.filter Option.isSome).length - 1) + 2 := by
  have hopen : ('\x7b').utf8Size = 1 := by decide
  have hclose : ('\x7d').utf8Size = 1 := by decide
  have hcolon : (':').utf8Size = 1 := by decide
  have hcount : (fields.filterMap fun field => field.map fun f => jsonString f.1 ++ ':' :: f.2).length =
      (fields.filter Option.isSome).length := by
    induction fields with
    | nil => rfl
    | cons field rest ih =>
      cases field with
      | none => simpa using ih
      | some f => simpa using ih
  have hsum : ((fields.filterMap fun field => field.map fun f => jsonString f.1 ++ ':' :: f.2).map jsonSize).sum =
      (fields.map fieldSize).sum := by
    clear hcount
    induction fields with
    | nil => rfl
    | cons field rest ih =>
      cases field with
      | none => simpa [fieldSize] using ih
      | some f =>
        have hcons : (some f :: rest).filterMap (fun field => field.map fun f => jsonString f.1 ++ ':' :: f.2) =
            (jsonString f.1 ++ ':' :: f.2) ::
              rest.filterMap fun field => field.map fun f => jsonString f.1 ++ ':' :: f.2 := rfl
        rw [hcons, List.map_cons, List.map_cons, List.sum_cons, List.sum_cons, ih, jsonSize_append, jsonSize_cons, hcolon,
          fieldSize, Option.elim_some]
        omega
  rw [jsonObject, List.cons_append, jsonSize_cons, jsonSize_append, jsonSize_intercalate, jsonSize_cons, jsonSize_nil, hopen,
    hclose, hsum, hcount]
  omega

theorem fieldSizes_le_jsonSize (fields : List (Option (String × JsonText))) :
    (fields.map fieldSize).sum + 2 ≤ jsonSize (jsonObject fields) := by
  rw [jsonSize_jsonObject]
  omega

/-- What a field adds to its object after another one: a comma too. -/
def laterFieldSize (field : Option (String × JsonText)) : Nat :=
  field.elim 0 fun f => 1 + fieldSize (some f)

theorem laterFieldSize_jsonField (name : String) (text : JsonText) :
    laterFieldSize (jsonField name text) = 1 + (jsonSize (jsonString name) + 1 + jsonSize text) := rfl

/-- An object whose first field is always there. -/
theorem jsonSize_jsonObject_cons (name : String) (text : JsonText) (rest : List (Option (String × JsonText))) :
    jsonSize (jsonObject (jsonField name text :: rest)) =
      fieldSize (jsonField name text) + (rest.map laterFieldSize).sum + 2 := by
  have hlater : (rest.map laterFieldSize).sum = (rest.map fieldSize).sum + (rest.filter Option.isSome).length := by
    induction rest with
    | nil => rfl
    | cons field rest ih =>
      cases field with
      | none => simpa [laterFieldSize, fieldSize] using ih
      | some f =>
        have hfilter : ((some f :: rest).filter Option.isSome).length = (rest.filter Option.isSome).length + 1 := rfl
        rw [List.map_cons, List.map_cons, List.sum_cons, List.sum_cons, ih, hfilter, laterFieldSize, Option.elim_some]
        omega
  have hfirst : ((jsonField name text :: rest).filter Option.isSome).length =
      (rest.filter Option.isSome).length + 1 := rfl
  rw [jsonSize_jsonObject, List.map_cons, List.sum_cons, hfirst, hlater]
  omega

theorem fieldSize_jsonField (name : String) (text : JsonText) :
    fieldSize (jsonField name text) = jsonSize (jsonString name) + 1 + jsonSize text := rfl

/-! ### Contents -/

theorem len_le_fieldSize (name s : String) : len s ≤ fieldSize (jsonField name (jsonString s)) := by
  have := len_le_jsonSize_jsonString s
  rw [fieldSize_jsonField]
  omega

/-- An object whose fields hold at least the given contents. -/
theorem contents_le_jsonObject {contents : List Nat} {fields : List (Option (String × JsonText))}
    (h : List.Forall₂ (fun content field => content ≤ fieldSize field) contents fields) :
    contents.sum + 2 ≤ jsonSize (jsonObject fields) := by
  have hsum : contents.sum ≤ (fields.map fieldSize).sum := by
    induction h with
    | nil => exact le_rfl
    | cons hcontent hrest ih =>
      rw [List.sum_cons, List.map_cons, List.sum_cons]
      exact Nat.add_le_add hcontent ih
  have := fieldSizes_le_jsonSize fields
  omega

/-- The items of an array with one byte each are at most the array, if an item's content leaves room for its
brackets. -/
theorem contents_le_jsonArray {α : Type} {content : α → Nat} {json : α → JsonText}
    (h : ∀ item, content item + 2 ≤ jsonSize (json item)) (items : List α) :
    items.length + (items.map content).sum ≤ jsonSize (jsonArray (items.map json)) := by
  have hsum : items.length + (items.map content).sum ≤ ((items.map json).map jsonSize).sum := by
    induction items with
    | nil => exact le_rfl
    | cons item rest ih =>
      have := h item
      simp only [List.map_cons, List.sum_cons, List.length_cons] at ih ⊢
      omega
  rw [jsonSize_jsonArray]
  omega

/-- The entries of a map with one byte each, and its keys and values. -/
theorem contents_le_jsonMap (m : GoMap String String) :
    GoMap.len m + (m.sortedKeys.map fun key => len key + len (GoMap.get m key)).sum ≤
      jsonSize (jsonMap jsonString m) := by
  have hlength : m.sortedKeys.length = GoMap.len m := by
    rw [GoMap.len, ← List.toFinset_card_of_nodup (GoMap.nodup_sortedKeys m)]
    congr 1
    ext key
    rw [List.mem_toFinset, GoMap.mem_sortedKeys, Finmap.mem_keys]
  have hentries : ∀ keys : List String, keys.length + (keys.map fun key => len key + len (GoMap.get m key)).sum ≤
      ((keys.map fun key => jsonField key (jsonString (GoMap.get m key))).map fieldSize).sum := by
    intro keys
    induction keys with
    | nil => exact le_rfl
    | cons key rest ih =>
      have hkey := len_le_jsonSize_jsonString key
      have hvalue := len_le_jsonSize_jsonString (GoMap.get m key)
      simp only [List.map_cons, List.sum_cons, List.length_cons, fieldSize_jsonField] at ih ⊢
      omega
  have hfields := fieldSizes_le_jsonSize (m.sortedKeys.map fun key => jsonField key (jsonString (GoMap.get m key)))
  have hkeys := hentries m.sortedKeys
  rw [jsonMap]
  omega

end ChainLab.Lib
