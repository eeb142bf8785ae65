import Mathlib

/-! Finite maps with Go's reading conventions: a missing key reads as the zero value, and weights are
summed over all entries. -/

namespace ChainLab.Lib

/-- A Go `map[κ]ν`; two maps are equal exactly when they answer every lookup alike. -/
abbrev GoMap (κ ν : Type) : Type := Finmap (fun _ : κ => ν)

namespace GoMap

variable {κ ν : Type} [DecidableEq κ]

/-- `m[k]`, with the zero value of `ν` for a missing key. -/
def get [Inhabited ν] (m : GoMap κ ν) (k : κ) : ν := (m.lookup k).getD default

/-- `len(m)`. -/
def len (m : GoMap κ ν) : Nat := m.keys.card

/-- The map built by assigning the pairs in order. -/
def ofList (entries : List (κ × ν)) : GoMap κ ν :=
  entries.foldl (fun m e => m.insert e.1 e.2) ∅

theorem lookup_insert_if (m : GoMap κ ν) (k j : κ) (v : ν) :
    (m.insert k v).lookup j = if j = k then some v else m.lookup j := by
  by_cases h : j = k
  · subst h; simp
  · simp [Finmap.lookup_insert_of_ne m h, h]

theorem lookup_erase_if (m : GoMap κ ν) (k j : κ) :
    (m.erase k).lookup j = if j = k then none else m.lookup j := by
  by_cases h : j = k
  · subst h; simp
  · simp [Finmap.lookup_erase_ne h, h]

@[simp] theorem get_empty [Inhabited ν] (k : κ) : get (∅ : GoMap κ ν) k = default := rfl

theorem get_insert [Inhabited ν] (m : GoMap κ ν) (k j : κ) (v : ν) :
    get (m.insert k v) j = if j = k then v else get m j := by
  unfold get; rw [lookup_insert_if]; split <;> rfl

theorem get_erase [Inhabited ν] (m : GoMap κ ν) (k j : κ) :
    get (m.erase k) j = if j = k then default else get m j := by
  unfold get; rw [lookup_erase_if]; split <;> rfl

omit [DecidableEq κ] in
@[simp] theorem len_empty : len (∅ : GoMap κ ν) = 0 := rfl

theorem len_eq_zero {m : GoMap κ ν} : len m = 0 ↔ m = ∅ := by
  constructor
  · intro h
    apply Finmap.ext_lookup
    intro k
    rw [Finmap.lookup_eq_none.mpr fun hk => ?_, Finmap.lookup_empty]
    have hmem := Finmap.mem_keys.mpr hk
    rw [Finset.card_eq_zero.mp h] at hmem
    exact Finset.notMem_empty k hmem
  · rintro rfl
    rfl

theorem len_insert (m : GoMap κ ν) (k : κ) (v : ν) :
    len (m.insert k v) = if k ∈ m then len m else len m + 1 := by
  have h : (m.insert k v).keys = Insert.insert k m.keys := by
    ext j; simp [Finmap.mem_keys]
  unfold len
  rw [h, Finset.card_insert_eq_ite]
  simp [Finmap.mem_keys]

theorem len_erase_of_mem {m : GoMap κ ν} {k : κ} (h : k ∈ m) : len (m.erase k) + 1 = len m := by
  unfold len
  rw [Finmap.keys_erase]
  exact Finset.card_erase_add_one (Finmap.mem_keys.mpr h)

theorem len_erase_le (m : GoMap κ ν) (k : κ) : len (m.erase k) ≤ len m := by
  unfold len; rw [Finmap.keys_erase]; exact Finset.card_erase_le

/-- The keys in increasing order. -/
def sortedKeys [LinearOrder κ] (m : GoMap κ ν) : List κ :=
  Quotient.liftOn m.keys.val (fun l => l.insertionSort (· ≤ ·)) fun _ _ h =>
    ((List.perm_insertionSort _ _).trans (h.trans (List.perm_insertionSort _ _).symm)).eq_of_pairwise'
      (List.pairwise_insertionSort _ _) (List.pairwise_insertionSort _ _)

omit [DecidableEq κ] in
@[simp] theorem mem_sortedKeys [LinearOrder κ] {m : GoMap κ ν} {k : κ} : k ∈ m.sortedKeys ↔ k ∈ m := by
  rw [← Finmap.mem_keys, Finset.mem_def]
  unfold sortedKeys
  induction m.keys.val using Quotient.inductionOn with
  | _ l => simp

omit [DecidableEq κ] in
theorem nodup_sortedKeys [LinearOrder κ] (m : GoMap κ ν) : m.sortedKeys.Nodup := by
  have hnodup := m.keys.nodup
  unfold sortedKeys
  revert hnodup
  induction m.keys.val using Quotient.inductionOn with
  | _ l => exact fun hnodup => (List.perm_insertionSort _ l).nodup_iff.mpr hnodup

omit [DecidableEq κ] in
theorem pairwise_sortedKeys [LinearOrder κ] (m : GoMap κ ν) : m.sortedKeys.Pairwise (· ≤ ·) := by
  unfold sortedKeys
  induction m.keys.val using Quotient.inductionOn with
  | _ l => exact List.pairwise_insertionSort (· ≤ ·) l

omit [DecidableEq κ] in
theorem sortedKeys_increasing [LinearOrder κ] (m : GoMap κ ν) : m.sortedKeys.Pairwise (· < ·) :=
  (m.pairwise_sortedKeys.and (nodup_sortedKeys m)).imp fun h => lt_of_le_of_ne h.1 h.2

/-- The same entries under other keys. -/
def rekey {κ' : Type} (f : κ → κ') (hf : Function.Injective f) (m : GoMap κ ν) : GoMap κ' ν where
  entries := m.entries.map fun e => ⟨f e.1, e.2⟩
  nodupKeys := by
    rw [← Multiset.nodup_keys, Multiset.keys, Multiset.map_map]
    have hkeys := m.nodupKeys.nodup_keys
    rw [Multiset.keys] at hkeys
    have hcomp : (Sigma.fst ∘ fun e : (_ : κ) × ν => (⟨f e.1, e.2⟩ : (_ : κ') × ν)) = f ∘ Sigma.fst := rfl
    rw [hcomp, ← Multiset.map_map]
    exact hkeys.map hf

theorem lookup_rekey {κ' : Type} [DecidableEq κ'] {f : κ → κ'} (hf : Function.Injective f) (m : GoMap κ ν) (k : κ) :
    (rekey f hf m).lookup (f k) = m.lookup k := by
  ext v
  rw [← Option.mem_def, ← Option.mem_def, Finmap.mem_lookup_iff, Finmap.mem_lookup_iff]
  simp only [rekey, Multiset.mem_map, Sigma.mk.injEq]
  constructor
  · rintro ⟨⟨k', v'⟩, hmem, hk, hv⟩
    obtain rfl := hf hk
    obtain rfl := eq_of_heq hv
    exact hmem
  · exact fun hmem => ⟨⟨k, v⟩, hmem, rfl, HEq.rfl⟩

omit [DecidableEq κ] in
theorem exists_of_mem_rekey {κ' : Type} [DecidableEq κ'] {f : κ → κ'} {hf : Function.Injective f} {m : GoMap κ ν}
    {k' : κ'} (h : k' ∈ rekey f hf m) : ∃ k ∈ m, f k = k' := by
  rw [← Finmap.mem_keys] at h
  obtain ⟨e, he, rfl⟩ := Multiset.mem_map.mp (Finset.mem_def.mp h)
  obtain ⟨⟨k, v⟩, hmem, rfl⟩ := Multiset.mem_map.mp he
  exact ⟨k, Finmap.mem_keys.mp (Finset.mem_def.mpr (Multiset.mem_map_of_mem Sigma.fst hmem)), rfl⟩

/-- The entries whose key satisfies `p`. -/
def filterKeys (p : κ → Bool) (m : GoMap κ ν) : GoMap κ ν where
  entries := m.entries.filter fun e => p e.1
  nodupKeys := Multiset.nodup_keys.mp
    (Multiset.nodup_of_le (Multiset.map_le_map (Multiset.filter_le _ _)) m.nodupKeys.nodup_keys)

theorem lookup_filterKeys (p : κ → Bool) (m : GoMap κ ν) (k : κ) :
    (filterKeys p m).lookup k = if p k then m.lookup k else none := by
  ext v
  by_cases h : p k = true
  · simp only [h, if_true]
    exact Finmap.lookup_eq_some_iff.trans
      ((by simp [filterKeys, h] : _ ↔ _).trans Finmap.lookup_eq_some_iff.symm)
  · simp only [h, Bool.false_eq_true, if_false, reduceCtorEq, iff_false]
    intro hv
    have := Finmap.lookup_eq_some_iff.mp hv
    simp [filterKeys, h] at this

theorem get_filterKeys [Inhabited ν] (p : κ → Bool) (m : GoMap κ ν) (k : κ) :
    get (filterKeys p m) k = if p k then get m k else default := by
  unfold get; rw [lookup_filterKeys]; split <;> rfl

theorem len_filterKeys_le (p : κ → Bool) (m : GoMap κ ν) : len (filterKeys p m) ≤ len m := by
  apply Finset.card_le_card
  intro k hk
  rw [Finmap.mem_keys, ← Finmap.lookup_isSome, lookup_filterKeys] at hk
  rw [Finmap.mem_keys, ← Finmap.lookup_isSome]
  split at hk
  · exact hk
  · simp at hk

/-- The sum of the weights of all entries. -/
def total (f : κ → ν → Nat) (m : GoMap κ ν) : Nat := (m.entries.map fun e => f e.1 e.2).sum

/-- The weight a map holds at one key, zero when the key is missing. -/
def weight (f : κ → ν → Nat) (m : GoMap κ ν) (k : κ) : Nat := (m.lookup k).elim 0 (f k)

omit [DecidableEq κ] in
@[simp] theorem total_empty (f : κ → ν → Nat) : total f (∅ : GoMap κ ν) = 0 := rfl

private theorem total_insert_of_notMem (f : κ → ν → Nat) {m : GoMap κ ν} {k : κ} (v : ν)
    (h : k ∉ m) : total f (m.insert k v) = f k v + total f m := by
  simp only [total, Finmap.entries_insert_of_notMem h, Multiset.map_cons, Multiset.sum_cons]

theorem total_erase (f : κ → ν → Nat) (m : GoMap κ ν) (k : κ) :
    total f (m.erase k) + weight f m k = total f m := by
  cases h : m.lookup k with
  | none =>
    have hm : m.erase k = m := by
      apply Finmap.ext_lookup
      intro j
      rw [lookup_erase_if]
      split
      · next e => rw [e, h]
      · rfl
    rw [hm]
    simp [weight, h]
  | some v =>
    have h1 : total f ((m.erase k).insert k v) = f k v + total f (m.erase k) :=
      total_insert_of_notMem f v Finmap.notMem_erase_self
    have h2 : (m.erase k).insert k v = m := by
      apply Finmap.ext_lookup
      intro j
      simp only [lookup_insert_if, lookup_erase_if]
      split
      · next e => rw [e, h]
      · rfl
    rw [h2] at h1
    simp only [weight, h, Option.elim_some]
    omega

theorem total_insert (f : κ → ν → Nat) (m : GoMap κ ν) (k : κ) (v : ν) :
    total f (m.insert k v) + weight f m k = total f m + f k v := by
  have h1 : m.insert k v = (m.erase k).insert k v := by
    apply Finmap.ext_lookup
    intro j
    simp only [lookup_insert_if, lookup_erase_if]
    split <;> rfl
  have h2 := total_insert_of_notMem f v (Finmap.notMem_erase_self (a := k) (s := m))
  have h3 := total_erase f m k
  rw [h1]
  omega

theorem total_eq_sum_keys (f : κ → ν → Nat) (m : GoMap κ ν) {keys : Finset κ} (h : m.keys ⊆ keys) :
    total f m = ∑ k ∈ keys, weight f m k := by
  have hsub : ∑ k ∈ keys, weight f m k = ∑ k ∈ m.keys, weight f m k := by
    symm
    apply Finset.sum_subset h
    intro k _ hk
    rw [Finmap.mem_keys, ← Finmap.lookup_eq_none] at hk
    simp [weight, hk]
  have hkeys : m.keys.val = m.entries.map Sigma.fst := rfl
  rw [hsub, Finset.sum, hkeys, Multiset.map_map, total]
  congr 1
  apply Multiset.map_congr rfl
  intro e he
  have : m.lookup e.1 = some e.2 := Finmap.mem_lookup_iff.mpr he
  simp [weight, this]

/-- Maps that weigh the same at every key weigh the same in total, whatever entries of weight zero
they hold. -/
theorem total_congr {μ : Type} {f : κ → ν → Nat} {g : κ → μ → Nat} {m : GoMap κ ν} {n : GoMap κ μ}
    (h : ∀ k, weight f m k = weight g n k) : total f m = total g n := by
  have hm : m.keys ⊆ m.keys ∪ n.keys := Finset.subset_union_left
  have hn : n.keys ⊆ m.keys ∪ n.keys := Finset.subset_union_right
  rw [total_eq_sum_keys f m hm, total_eq_sum_keys g n hn]
  exact Finset.sum_congr rfl fun k _ => h k

omit [DecidableEq κ] in
/-- Entries that are split by their keys weigh together what they weighed before. -/
theorem total_filterKeys (f : κ → ν → Nat) (p : κ → Bool) (m : GoMap κ ν) :
    total f (filterKeys p m) + total f (filterKeys (fun k => !p k) m) = total f m := by
  have hsplit := Multiset.filter_add_not (fun e : Sigma fun _ : κ => ν => p e.1 = true) m.entries
  unfold total filterKeys
  rw [← Multiset.sum_add, ← Multiset.map_add]
  simp only [Bool.not_eq_true', Bool.not_eq_true] at hsplit ⊢
  rw [hsplit]

theorem weight_le_total (f : κ → ν → Nat) (m : GoMap κ ν) (k : κ) : weight f m k ≤ total f m := by
  have := total_erase f m k
  omega

end GoMap

end ChainLab.Lib
