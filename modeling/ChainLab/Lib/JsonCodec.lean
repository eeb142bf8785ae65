import ChainLab.Lib.Json

/-! Encodings that can be read back: from a document that starts with an encoded value, the value and
the rest of the document are determined. -/

namespace ChainLab.Lib

variable {α β : Type}

/-- What may follow a value inside a document. -/
def Closes (rest : JsonText) : Prop := ∀ c ∈ rest.head?, c = ',' ∨ c = ']' ∨ c = '\x7d'

theorem closes_nil : Closes [] := by simp [Closes]

theorem closes_comma (rest : JsonText) : Closes (',' :: rest) := by simp [Closes]

theorem closes_bracket (rest : JsonText) : Closes (']' :: rest) := by simp [Closes]

theorem closes_brace (rest : JsonText) : Closes ('\x7d' :: rest) := by simp [Closes]

/-- Two texts that can be told apart from what follows them. -/
def Separate (x y : JsonText) : Prop :=
  ∀ r r', Closes r → Closes r' → x ++ r = y ++ r' → x = y ∧ r = r'

/-- The values of an encoding can be read back. -/
structure Readable (encode : α → JsonText) : Prop where
  injective : Function.Injective encode
  separate : ∀ a b, Separate (encode a) (encode b)
  /-- a value is not empty and does not start like the end of a list -/
  opens : ∀ a, ∃ c rest, encode a = c :: rest ∧ c ≠ ']' ∧ c ≠ '\x7d'

theorem Readable.append_inj {encode : α → JsonText} (h : Readable encode) {a b : α} {r r' : JsonText}
    (hr : Closes r) (hr' : Closes r') (heq : encode a ++ r = encode b ++ r') : a = b ∧ r = r' := by
  obtain ⟨henc, hrest⟩ := h.separate a b r r' hr hr' heq
  exact ⟨h.injective henc, hrest⟩

theorem Readable.of_append_inj {encode : α → JsonText}
    (h : ∀ a b r r', Closes r → Closes r' → encode a ++ r = encode b ++ r' → a = b ∧ r = r')
    (hopens : ∀ a, ∃ c rest, encode a = c :: rest ∧ c ≠ ']' ∧ c ≠ '\x7d') : Readable encode where
  injective a b heq := (h a b [] [] closes_nil closes_nil (by rw [heq])).1
  separate a b r r' hr hr' heq := by
    obtain ⟨rfl, hrest⟩ := h a b r r' hr hr' heq
    exact ⟨rfl, hrest⟩
  opens := hopens

/-! ### Scalars -/

theorem readable_jsonString : Readable jsonString :=
  .of_append_inj (fun _ _ _ _ _ _ heq => jsonString_append_inj heq)
    fun s => ⟨'"', _, rfl, by decide, by decide⟩

/-- Two runs of characters of one kind, each ended by what follows. -/
private theorem span_append_inj {p : Char → Bool} {xs ys r r' : List Char} (hxs : ∀ c ∈ xs, p c = true)
    (hys : ∀ c ∈ ys, p c = true) (hr : ∀ c ∈ r.head?, p c = false) (hr' : ∀ c ∈ r'.head?, p c = false)
    (h : xs ++ r = ys ++ r') : xs = ys ∧ r = r' := by
  have htake : ∀ zs rest : List Char, (∀ c ∈ zs, p c = true) → (∀ c ∈ rest.head?, p c = false) →
      (zs ++ rest).takeWhile p = zs := by
    intro zs rest hzs hrest
    rw [List.takeWhile_append_of_pos hzs]
    cases rest with
    | nil => simp
    | cons c cs => simp [hrest c (by simp)]
  have hxy : xs = ys := by rw [← htake xs r hxs hr, h, htake ys r' hys hr']
  subst hxy
  exact ⟨rfl, List.append_cancel_left h⟩

private theorem closes_not_digit {r : JsonText} (hr : Closes r) : ∀ c ∈ r.head?, c.isDigit = false := by
  intro c hc
  obtain rfl | rfl | rfl := hr c hc <;> decide

private theorem isDigit_toDigits (n : Nat) : ∀ c ∈ Nat.toDigits 10 n, c.isDigit = true :=
  fun _ hc => Nat.isDigit_of_mem_toDigits (by decide) (by decide) hc

private theorem toDigits_injective : Function.Injective (Nat.toDigits 10) := by
  intro m n h
  rw [← @Nat.ofDigitChars_ten_toDigits m, h, Nat.ofDigitChars_ten_toDigits]

private theorem toDigits_append_inj {m n : Nat} {r r' : JsonText} (hr : Closes r) (hr' : Closes r')
    (h : Nat.toDigits 10 m ++ r = Nat.toDigits 10 n ++ r') : m = n ∧ r = r' := by
  obtain ⟨hdigits, hrest⟩ := span_append_inj (isDigit_toDigits m) (isDigit_toDigits n) (closes_not_digit hr)
    (closes_not_digit hr') h
  exact ⟨toDigits_injective hdigits, hrest⟩

private theorem toDigits_opens (n : Nat) : ∃ c rest, Nat.toDigits 10 n = c :: rest ∧ c.isDigit = true := by
  cases hdigits : Nat.toDigits 10 n with
  | nil => exact absurd hdigits Nat.toDigits_ne_nil
  | cons c rest => exact ⟨c, rest, rfl, isDigit_toDigits n c (by rw [hdigits]; exact List.mem_cons_self)⟩

private theorem digit_opens {c : Char} (h : c.isDigit = true) : c ≠ ']' ∧ c ≠ '\x7d' ∧ c ≠ '-' := by
  refine ⟨?_, ?_, ?_⟩
  all_goals
    rintro rfl
    revert h
    decide

theorem readable_jsonUint : Readable jsonUint := by
  refine .of_append_inj (fun a b r r' hr hr' heq => ?_) fun a => ?_
  · obtain ⟨hnat, hrest⟩ := toDigits_append_inj hr hr' heq
    exact ⟨UInt64.toNat_inj.mp hnat, hrest⟩
  · obtain ⟨c, rest, hdigits, hc⟩ := toDigits_opens a.toNat
    exact ⟨c, rest, hdigits, (digit_opens hc).1, (digit_opens hc).2.1⟩

theorem readable_jsonInt : Readable jsonInt := by
  have hsign : ∀ n r s, Nat.toDigits 10 n ++ r ≠ '-' :: s := by
    intro n r s heq
    obtain ⟨c, rest, hdigits, hc⟩ := toDigits_opens n
    rw [hdigits, List.cons_append] at heq
    exact (digit_opens hc).2.2 (List.cons.inj heq).1
  refine .of_append_inj (fun a b r r' hr hr' heq => ?_) fun a => ?_
  · unfold jsonInt at heq
    split_ifs at heq with ha hb hb
    · obtain ⟨habs, hrest⟩ := toDigits_append_inj hr hr' (List.cons.inj heq).2
      exact ⟨Int64.toInt_inj.mp (by omega), hrest⟩
    · exact absurd heq.symm (hsign _ _ _)
    · exact absurd heq (hsign _ _ _)
    · obtain ⟨habs, hrest⟩ := toDigits_append_inj hr hr' heq
      exact ⟨Int64.toInt_inj.mp (by omega), hrest⟩
  · unfold jsonInt
    split_ifs with ha
    · exact ⟨'-', _, rfl, by decide, by decide⟩
    · obtain ⟨c, rest, hdigits, hc⟩ := toDigits_opens a.toInt.natAbs
      exact ⟨c, rest, hdigits, (digit_opens hc).1, (digit_opens hc).2.1⟩

theorem readable_jsonBool : Readable jsonBool := by
  refine .of_append_inj (fun a b r r' _ _ heq => ?_) fun a => ?_
  · cases a <;> cases b <;> simp [jsonBool] at heq ⊢ <;> exact heq
  · cases a
    · exact ⟨'f', _, rfl, by decide, by decide⟩
    · exact ⟨'t', _, rfl, by decide, by decide⟩

/-! ### Lists -/

/-- Items, each after a comma. -/
private def listed (items : List JsonText) : JsonText := items.flatMap (',' :: ·)

private theorem intercalate_cons (x : JsonText) (xs : List JsonText) :
    [','].intercalate (x :: xs) = x ++ listed xs := by
  induction xs generalizing x with
  | nil => simp [listed]
  | cons y ys ih =>
    rw [List.intercalate_cons_cons, ih]
    simp [listed]

/-- Two lists up to the same closing mark agree when their items do. -/
private theorem listed_of_intercalate {close : Char} {xs ys : List JsonText} {r r' : JsonText}
    (hxs : ∀ x ∈ xs, ∃ c rest, x = c :: rest ∧ c ≠ close) (hys : ∀ y ∈ ys, ∃ c rest, y = c :: rest ∧ c ≠ close)
    (h : [','].intercalate xs ++ close :: r = [','].intercalate ys ++ close :: r') :
    listed xs ++ close :: r = listed ys ++ close :: r' := by
  have hopen : ∀ (zs : List JsonText) (z s s' : JsonText), (∃ c rest, z = c :: rest ∧ c ≠ close) →
      [','].intercalate (z :: zs) ++ s ≠ close :: s' := by
    rintro zs z s s' ⟨c, rest, rfl, hc⟩ heq
    rw [intercalate_cons, List.cons_append, List.cons_append] at heq
    exact hc (List.cons.inj heq).1
  cases xs with
  | nil =>
    cases ys with
    | nil => exact h
    | cons y ys => exact absurd h.symm (hopen ys y _ _ (hys y List.mem_cons_self))
  | cons x xs =>
    cases ys with
    | nil => exact absurd h (hopen xs x _ _ (hxs x List.mem_cons_self))
    | cons y ys =>
      rw [intercalate_cons, intercalate_cons] at h
      simp only [listed, List.flatMap_cons, List.cons_append] at h ⊢
      rw [h]

private theorem closes_listed {xs : List JsonText} {close : Char} (hclose : close = ']' ∨ close = '\x7d')
    (r : JsonText) : Closes (listed xs ++ close :: r) := by
  cases xs with
  | nil =>
    obtain rfl | rfl := hclose
    · exact closes_bracket r
    · exact closes_brace r
  | cons x xs => exact closes_comma _

private theorem listed_map_append_inj {encode : α → JsonText} (h : Readable encode) {close : Char}
    (hclose : close = ']' ∨ close = '\x7d') {as bs : List α} {r r' : JsonText}
    (heq : listed (as.map encode) ++ close :: r = listed (bs.map encode) ++ close :: r') : as = bs ∧ r = r' := by
  induction as generalizing bs with
  | nil =>
    cases bs with
    | nil => exact ⟨rfl, (List.cons.inj heq).2⟩
    | cons b bs =>
      obtain rfl | rfl := hclose <;> simp [listed] at heq
  | cons a as ih =>
    cases bs with
    | nil => obtain rfl | rfl := hclose <;> simp [listed] at heq
    | cons b bs =>
      simp only [listed, List.map_cons, List.flatMap_cons, List.cons_append, List.append_assoc, List.cons.injEq,
        true_and] at heq
      obtain ⟨rfl, hrest⟩ := h.append_inj (closes_listed hclose r) (closes_listed hclose r') heq
      obtain ⟨rfl, hr⟩ := ih hrest
      exact ⟨rfl, hr⟩

private theorem intercalate_map_append_inj {encode : α → JsonText} (h : Readable encode) {close : Char}
    (hclose : close = ']' ∨ close = '\x7d') {as bs : List α} {r r' : JsonText}
    (heq : [','].intercalate (as.map encode) ++ close :: r = [','].intercalate (bs.map encode) ++ close :: r') :
    as = bs ∧ r = r' := by
  have hopens : ∀ cs : List α, ∀ x ∈ cs.map encode, ∃ c rest, x = c :: rest ∧ c ≠ close := by
    intro cs x hx
    obtain ⟨a, -, rfl⟩ := List.mem_map.mp hx
    obtain ⟨c, rest, henc, hbracket, hbrace⟩ := h.opens a
    exact ⟨c, rest, henc, by obtain rfl | rfl := hclose <;> assumption⟩
  exact listed_map_append_inj h hclose (listed_of_intercalate (hopens as) (hopens bs) heq)

theorem readable_jsonArray {encode : α → JsonText} (h : Readable encode) :
    Readable fun items : List α => jsonArray (items.map encode) := by
  refine .of_append_inj (fun as bs r r' _ _ heq => ?_) fun as => ⟨'[', _, rfl, by decide, by decide⟩
  simp only [jsonArray, List.cons_append, List.append_assoc, List.nil_append, List.cons.injEq, true_and] at heq
  exact intercalate_map_append_inj h (.inl rfl) heq

/-! ### Maps -/

private theorem readable_pair {encode : β → JsonText} (h : Readable encode) :
    Readable fun pair : String × β => jsonString pair.1 ++ ':' :: encode pair.2 := by
  refine .of_append_inj (fun a b r r' hr hr' heq => ?_) fun a => ⟨'"', _, rfl, by decide, by decide⟩
  rw [List.append_assoc, List.append_assoc] at heq
  obtain ⟨hkey, hrest⟩ := jsonString_append_inj heq
  obtain ⟨hvalue, hr⟩ := h.append_inj hr hr' (List.cons.inj hrest).2
  exact ⟨Prod.ext hkey hvalue, hr⟩

theorem jsonMap_eq [Inhabited β] (encode : β → JsonText) (m : GoMap String β) :
    jsonMap encode m = '\x7b' :: [','].intercalate ((m.sortedKeys.map fun k => (k, GoMap.get m k)).map
      fun pair => jsonString pair.1 ++ ':' :: encode pair.2) ++ ['\x7d'] := by
  unfold jsonMap jsonObject jsonField
  congr 3
  rw [List.filterMap_map, List.map_map]
  induction m.sortedKeys with
  | nil => rfl
  | cons k ks => simp

private theorem map_ext_sortedKeys [Inhabited β] {m m' : GoMap String β}
    (h : (m.sortedKeys.map fun k => (k, GoMap.get m k)) = m'.sortedKeys.map fun k => (k, GoMap.get m' k)) :
    m = m' := by
  have hentry : ∀ (n : GoMap String β) (k : String) (v : β),
      (k, v) ∈ (n.sortedKeys.map fun k => (k, GoMap.get n k)) ↔ n.lookup k = some v := by
    intro n k v
    simp only [List.mem_map, GoMap.mem_sortedKeys, Prod.mk.injEq, GoMap.get]
    constructor
    · rintro ⟨k', hmem, rfl, rfl⟩
      obtain ⟨v', hv'⟩ := Option.isSome_iff_exists.mp (Finmap.lookup_isSome.mpr hmem)
      rw [hv', Option.getD_some]
    · intro hlookup
      exact ⟨k, Finmap.mem_of_lookup_eq_some hlookup, rfl, by rw [hlookup, Option.getD_some]⟩
  apply Finmap.ext_lookup
  intro k
  ext v
  rw [← hentry m, h, hentry m']

theorem readable_jsonMap [Inhabited β] {encode : β → JsonText} (h : Readable encode) : Readable (jsonMap encode) := by
  refine .of_append_inj (fun m m' r r' _ _ heq => ?_) fun m => ⟨'\x7b', _, rfl, by decide, by decide⟩
  rw [jsonMap_eq, jsonMap_eq] at heq
  simp only [List.cons_append, List.append_assoc, List.nil_append, List.cons.injEq, true_and] at heq
  obtain ⟨hpairs, hr⟩ := intercalate_map_append_inj (readable_pair h) (.inr rfl) heq
  exact ⟨map_ext_sortedKeys hpairs, hr⟩

/-! ### Structs -/

/-- The fields of a struct that are written, under their names. -/
private def written (fields : List (Option (String × JsonText))) : List JsonText :=
  fields.filterMap fun field => field.map fun f => jsonString f.1 ++ ':' :: f.2

/-- Each field carries its name. -/
private def Named (names : List String) (fields : List (Option (String × JsonText))) : Prop :=
  List.Forall₂ (fun name field => ∀ f ∈ field, f.1 = name) names fields

/-- Fields that can be told apart one by one. -/
private def SeparateFields (fields others : List (Option (String × JsonText))) : Prop :=
  List.Forall₂ (fun field other => ∀ f ∈ field, ∀ g ∈ other, Separate f.2 g.2) fields others

/-- A name that is not among the names of a list of fields does not come next. -/
private theorem name_not_next {names : List String} {fields : List (Option (String × JsonText))}
    (hnamed : Named names fields) {name : String} (hname : name ∉ names) (s r r' : JsonText) :
    listed (written fields) ++ '\x7d' :: r ≠ ',' :: (jsonString name ++ s) ++ r' := by
  induction hnamed with
  | nil => simp [listed, written]
  | @cons n field ns fields hfield hrest ih =>
    cases field with
    | none => exact ih fun hmem => hname (List.mem_cons_of_mem n hmem)
    | some f =>
      intro heq
      simp only [listed, written, List.filterMap_cons, Option.map_some, List.flatMap_cons, List.cons_append,
        List.append_assoc, List.cons.injEq, true_and] at heq
      obtain ⟨rfl, -⟩ := jsonString_append_inj heq
      exact hname (hfield f rfl ▸ List.mem_cons_self)

private theorem written_append_inj {names : List String} {fields others : List (Option (String × JsonText))}
    (hnodup : names.Nodup) (hfields : Named names fields) (hothers : Named names others)
    (hsep : SeparateFields fields others) {r r' : JsonText}
    (heq : listed (written fields) ++ '\x7d' :: r = listed (written others) ++ '\x7d' :: r') :
    fields = others ∧ r = r' := by
  induction hfields generalizing others with
  | nil =>
    cases hothers
    exact ⟨rfl, (List.cons.inj heq).2⟩
  | @cons name field names fields hfield hrest ih =>
    cases hothers with
    | @cons _ other _ others hother hothers =>
      cases hsep with
      | cons hhead htail =>
        have hnotin := (List.nodup_cons.mp hnodup).1
        cases field with
        | none =>
          cases other with
          | none =>
            obtain ⟨rfl, hr⟩ := ih (List.nodup_cons.mp hnodup).2 hothers htail heq
            exact ⟨rfl, hr⟩
          | some g =>
            -- the other struct writes this field, this one goes on with later names
            obtain rfl := hother g rfl
            simp only [listed, written, List.filterMap_cons, Option.map_some, Option.map_none, List.flatMap_cons,
              List.append_assoc] at heq
            exact absurd heq (name_not_next hrest hnotin _ r _)
        | some f =>
          obtain rfl := hfield f rfl
          cases other with
          | none =>
            simp only [listed, written, List.filterMap_cons, Option.map_some, Option.map_none, List.flatMap_cons,
              List.append_assoc] at heq
            exact absurd heq.symm (name_not_next hothers hnotin _ r' _)
          | some g =>
            have hname : g.1 = f.1 := hother g rfl
            simp only [listed, written, List.filterMap_cons, Option.map_some, List.flatMap_cons, List.cons_append,
              List.append_assoc, List.cons.injEq, true_and] at heq
            obtain ⟨-, hrest'⟩ := jsonString_append_inj heq
            obtain ⟨htext, hrest''⟩ := hhead f rfl g rfl _ _ (closes_listed (.inr rfl) r) (closes_listed (.inr rfl) r')
              (List.cons.inj hrest').2
            obtain ⟨rfl, hr⟩ := ih (List.nodup_cons.mp hnodup).2 hothers htail hrest''
            obtain rfl : f = g := Prod.ext hname.symm htext
            exact ⟨rfl, hr⟩

/-- A field of a struct that is written under `name` and determines a part of the struct. -/
structure Part (name : String) (field : α → Option (String × JsonText)) (part : α → β) : Prop where
  named : ∀ a, ∀ f ∈ field a, f.1 = name
  separate : ∀ a b, ∀ f ∈ field a, ∀ g ∈ field b, Separate f.2 g.2
  determines : ∀ a b, field a = field b → part a = part b

theorem Part.field {encode : β → JsonText} (h : Readable encode) (name : String) (part : α → β) :
    Part name (fun a => jsonField name (encode (part a))) part where
  named _ f hf := (Option.some.inj hf) ▸ rfl
  separate a b f hf g hg := by
    obtain rfl := Option.some.inj hf
    obtain rfl := Option.some.inj hg
    exact h.separate _ _
  determines a b heq := h.injective (Prod.mk.inj (Option.some.inj heq)).2

/-- A field that is left out when its value is the zero value. -/
theorem Part.omitEmpty {encode : β → JsonText} (h : Readable encode) (name : String) (part : α → β) (zero : β)
    (empty : β → Bool) (hempty : ∀ b, empty b = true → b = zero) :
    Part name (fun a => jsonOmitEmpty (empty (part a)) name (encode (part a))) part where
  named a f hf := by
    unfold jsonOmitEmpty at hf
    split at hf
    · cases hf
    · exact (Option.some.inj hf) ▸ rfl
  separate a b f hf g hg := by
    unfold jsonOmitEmpty at hf hg
    split at hf <;> split at hg
    · cases hf
    · cases hf
    · cases hg
    · obtain rfl := Option.some.inj hf
      obtain rfl := Option.some.inj hg
      exact h.separate _ _
  determines a b heq := by
    unfold jsonOmitEmpty at heq
    split at heq <;> split at heq
    · rename_i ha hb
      rw [hempty _ ha, hempty _ hb]
    · cases heq
    · cases heq
    · exact h.injective (Prod.mk.inj (Option.some.inj heq)).2

/-- A pointer field, left out when nil. -/
theorem Part.optional {encode : β → JsonText} (h : Readable encode) (name : String) (part : α → Option β) :
    Part name (fun a => (part a).map fun b => (name, encode b)) part where
  named a f hf := by
    obtain ⟨b, -, rfl⟩ := Option.map_eq_some_iff.mp hf
    rfl
  separate a b f hf g hg := by
    obtain ⟨x, -, rfl⟩ := Option.map_eq_some_iff.mp hf
    obtain ⟨y, -, rfl⟩ := Option.map_eq_some_iff.mp hg
    exact h.separate x y
  determines a b heq := by
    refine Option.map_injective ?_ heq
    exact fun x y hxy => h.injective (Prod.mk.inj hxy).2

/-- The fields of a struct, and what two structs share that are written alike. -/
inductive Parts {α : Type} : List String → List (α → Option (String × JsonText)) → (α → α → Prop) → Prop
  | nil : Parts [] [] fun _ _ => True
  | cons {β : Type} {name : String} {names : List String} {field : α → Option (String × JsonText)}
    {fields : List (α → Option (String × JsonText))} {part : α → β} {same : α → α → Prop}
    (head : Part name field part) (tail : Parts names fields same) :
    Parts (name :: names) (field :: fields) fun a b => part a = part b ∧ same a b

namespace Parts

variable {names : List String} {fields : List (α → Option (String × JsonText))} {same : α → α → Prop}

private theorem named (h : Parts names fields same) (a : α) : Named names (fields.map fun field => field a) := by
  induction h with
  | nil => exact .nil
  | cons head _ ih => exact .cons (head.named a) ih

private theorem separate (h : Parts names fields same) (a b : α) :
    SeparateFields (fields.map fun field => field a) (fields.map fun field => field b) := by
  induction h with
  | nil => exact .nil
  | cons head _ ih => exact .cons (head.separate a b) ih

private theorem determines (h : Parts names fields same) {a b : α}
    (heq : (fields.map fun field => field a) = fields.map fun field => field b) : same a b := by
  induction h with
  | nil => trivial
  | cons head _ ih => exact ⟨head.determines a b (List.cons.inj heq).1, ih (List.cons.inj heq).2⟩

/-- A struct is read back from its fields. -/
theorem readable (h : Parts names fields same) (hnodup : names.Nodup) (hsame : ∀ a b, same a b → a = b) :
    Readable fun a => jsonObject (fields.map fun field => field a) := by
  have hopens : ∀ a, ∀ x ∈ written (fields.map fun field => field a), ∃ c rest, x = c :: rest ∧ c ≠ '\x7d' := by
    intro a x hx
    obtain ⟨field, -, hfield⟩ := List.mem_filterMap.mp hx
    obtain ⟨f, -, rfl⟩ := Option.map_eq_some_iff.mp hfield
    exact ⟨'"', _, rfl, by decide⟩
  refine .of_append_inj (fun a b r r' _ _ heq => ?_) fun a => ⟨'\x7b', _, rfl, by decide, by decide⟩
  simp only [jsonObject, List.cons_append, List.append_assoc, List.nil_append, List.cons.injEq, true_and] at heq
  obtain ⟨hfields, hr⟩ := written_append_inj hnodup (h.named a) (h.named b) (h.separate a b)
    (listed_of_intercalate (hopens a) (hopens b) heq)
  exact ⟨hsame a b (h.determines hfields), hr⟩

end Parts

end ChainLab.Lib
