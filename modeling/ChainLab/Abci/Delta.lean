import ChainLab.Abci.Journal
import ChainLab.Lib.Loops
import ChainLab.State.Mutators

/-! The change between two flat states, computed from both of them and from the journal of the second. -/

namespace ChainLab.Abci

open ChainLab.Lib ChainLab.Types ChainLab.Crypto ChainLab.State

/-- The order of deletions: by the ids of the entries. -/
def FlatStateEntry.le (left right : FlatStateEntry) : Prop :=
  flatStateID left.kind left.key ≤ flatStateID right.kind right.key

instance : DecidableRel FlatStateEntry.le := fun _ _ => inferInstanceAs (Decidable (_ ≤ _))

/-- `diffFlatState`. -/
def diffFlatState (previous next : FlatState) : FlatState × List FlatStateEntry :=
  (GoMap.filterKeys (fun id => (previous.lookup id).map FlatStateEntry.value ≠ some (GoMap.get next id).value) next,
    ((previous.sortedKeys.filter fun id => id ∉ next).map fun id => GoMap.get previous id).insertionSort
      FlatStateEntry.le)

/-- What `flatDeltaFromStoreMutations` has collected. -/
structure FlatDelta where
  sets : FlatState := ∅
  deletes : FlatState := ∅

/-- `addFlatMutation`. -/
def addFlatMutation (previous : FlatState) (delta : FlatDelta) (k : FlatKey) (value : Option JsonText) :
    Result FlatDelta := do
  refuseIf (k.bytes.length = 0) (newError "flat state mutation kind or key is invalid")
  return match value, previous.lookup k.id with
    | none, none => delta
    | none, some prior => { delta with deletes := delta.deletes.insert k.id prior }
    | some raw, prior =>
      if prior.map FlatStateEntry.value = some (utf8Bytes raw) then delta
      else { delta with sets := delta.sets.insert k.id (k.entry raw) }

/-- `flatDeltaFromStoreMutations`. -/
def flatDeltaFromStoreMutations (previous : FlatState) (next : Store) : Result (FlatState × List FlatStateEntry) := do
  let delta ← (mutatedKeys next.mutations).foldlM
    (fun delta k => addFlatMutation previous delta k (readFlatValue next k)) {}
  return (delta.sets, flatEntriesSorted delta.deletes)

/-! ### What the two compute -/

/-- The entry to be set for a key, if its value is new. -/
def setEntry (previous : FlatState) (k : FlatKey) (value : Option JsonText) : Option FlatStateEntry :=
  value.bind fun raw =>
    if (previous.lookup k.id).map FlatStateEntry.value = some (utf8Bytes raw) then none else some (k.entry raw)

/-- The entry to be deleted for a key, if it has a value no more. -/
def deletedEntry (previous : FlatState) (k : FlatKey) (value : Option JsonText) : Option FlatStateEntry :=
  value.elim (previous.lookup k.id) fun _ => none

/-- A delta that is complete for the keys in `K`, and has nothing else. -/
structure DeltaOf (previous : FlatState) (value : FlatKey → Option JsonText) (K : Set FlatKey) (delta : FlatDelta) :
    Prop where
  set_of_mem : ∀ k ∈ K, delta.sets.lookup k.id = setEntry previous k (value k)
  deleted_of_mem : ∀ k ∈ K, delta.deletes.lookup k.id = deletedEntry previous k (value k)
  set_of_notMem : ∀ k ∉ K, delta.sets.lookup k.id = none
  deleted_of_notMem : ∀ k ∉ K, delta.deletes.lookup k.id = none
  named : ∀ id, id ∈ delta.sets ∨ id ∈ delta.deletes → ∃ k : FlatKey, id = k.id

section Delta

variable {previous : FlatState} {value : FlatKey → Option JsonText} {K : Set FlatKey} {delta delta' : FlatDelta}
  {k : FlatKey}

theorem deltaOf_empty (previous : FlatState) (value : FlatKey → Option JsonText) : DeltaOf previous value ∅ {} where
  set_of_mem _ hk := hk.elim
  deleted_of_mem _ hk := hk.elim
  set_of_notMem _ _ := rfl
  deleted_of_notMem _ _ := rfl
  named _ hid := (hid.elim Finmap.notMem_empty Finmap.notMem_empty).elim

/-- What `addFlatMutation` does to the two maps. -/
theorem addFlatMutation_ok {v : Option JsonText} (h : addFlatMutation previous delta k v = .ok delta') :
    k.bytes.length ≠ 0 ∧
      (∀ id, delta'.sets.lookup id =
        if id = k.id then (setEntry previous k v).or (delta.sets.lookup id) else delta.sets.lookup id) ∧
      ∀ id, delta'.deletes.lookup id =
        if id = k.id then (deletedEntry previous k v).or (delta.deletes.lookup id) else delta.deletes.lookup id := by
  simp only [addFlatMutation, bind_ok, refuseIf_ok, exists_const, pure_eq_ok, Except.ok.injEq] at h
  obtain ⟨hbytes, rfl⟩ := h
  refine ⟨hbytes, fun id => ?_, fun id => ?_⟩
  · cases v with
    | none => cases hprior : previous.lookup k.id <;> simp [setEntry]
    | some raw =>
      by_cases hsame : (previous.lookup k.id).map FlatStateEntry.value = some (utf8Bytes raw)
      · simp [setEntry, hsame]
      · simp only [setEntry, Option.bind_some, if_neg hsame, Option.some_or]
        rw [GoMap.lookup_insert_if]
  · cases v with
    | none =>
      cases hprior : previous.lookup k.id with
      | none => simp [deletedEntry, hprior]
      | some prior => simp [deletedEntry, hprior, GoMap.lookup_insert_if]
    | some raw =>
      by_cases hsame : (previous.lookup k.id).map FlatStateEntry.value = some (utf8Bytes raw)
      · simp [deletedEntry, hsame]
      · simp [deletedEntry, hsame]

theorem DeltaOf.add (hdelta : DeltaOf previous value K delta)
    (h : addFlatMutation previous delta k (value k) = .ok delta') : DeltaOf previous value (insert k K) delta' := by
  obtain ⟨-, hsets, hdeletes⟩ := addFlatMutation_ok h
  -- a key visited twice is written twice with the same value
  have hset : ∀ other : FlatKey, delta'.sets.lookup other.id =
      if other = k then (setEntry previous k (value k)).or (delta.sets.lookup k.id) else delta.sets.lookup other.id := by
    intro other
    rw [hsets]
    by_cases heq : other = k
    · rw [heq, if_pos rfl, if_pos rfl]
    · rw [if_neg fun hid => heq (FlatKey.id_injective hid), if_neg heq]
  have hdeleted : ∀ other : FlatKey, delta'.deletes.lookup other.id =
      if other = k then (deletedEntry previous k (value k)).or (delta.deletes.lookup k.id)
      else delta.deletes.lookup other.id := by
    intro other
    rw [hdeletes]
    by_cases heq : other = k
    · rw [heq, if_pos rfl, if_pos rfl]
    · rw [if_neg fun hid => heq (FlatKey.id_injective hid), if_neg heq]
  refine ⟨fun other hother => ?_, fun other hother => ?_, fun other hother => ?_, fun other hother => ?_,
    fun id hid => ?_⟩
  · rw [hset]
    by_cases heq : other = k
    · rw [if_pos heq, heq]
      by_cases hk : k ∈ K
      · rw [hdelta.set_of_mem k hk, Option.or_self]
      · rw [hdelta.set_of_notMem k hk, Option.or_none]
    · rw [if_neg heq]
      exact hdelta.set_of_mem other (hother.resolve_left heq)
  · rw [hdeleted]
    by_cases heq : other = k
    · rw [if_pos heq, heq]
      by_cases hk : k ∈ K
      · rw [hdelta.deleted_of_mem k hk, Option.or_self]
      · rw [hdelta.deleted_of_notMem k hk, Option.or_none]
    · rw [if_neg heq]
      exact hdelta.deleted_of_mem other (hother.resolve_left heq)
  · rw [Set.mem_insert_iff, not_or] at hother
    rw [hset, if_neg hother.1]
    exact hdelta.set_of_notMem other hother.2
  · rw [Set.mem_insert_iff, not_or] at hother
    rw [hdeleted, if_neg hother.1]
    exact hdelta.deleted_of_notMem other hother.2
  · by_cases heq : id = k.id
    · exact ⟨k, heq⟩
    · have hsame : delta'.sets.lookup id = delta.sets.lookup id ∧
          delta'.deletes.lookup id = delta.deletes.lookup id := by
        rw [hsets, hdeletes, if_neg heq, if_neg heq]
        exact ⟨rfl, rfl⟩
      refine hdelta.named id (hid.imp (fun hmem => ?_) fun hmem => ?_)
      · obtain ⟨entry, hentry⟩ := Finmap.mem_iff.mp hmem
        exact Finmap.mem_of_lookup_eq_some (hsame.1.symm.trans hentry)
      · obtain ⟨entry, hentry⟩ := Finmap.mem_iff.mp hmem
        exact Finmap.mem_of_lookup_eq_some (hsame.2.symm.trans hentry)

theorem DeltaOf.congr {value' : FlatKey → Option JsonText} {K' : Set FlatKey} (h : DeltaOf previous value K delta)
    (hK : K = K') (hvalue : ∀ k ∈ K, value k = value' k) : DeltaOf previous value' K' delta := by
  subst hK
  refine ⟨fun k hk => ?_, fun k hk => ?_, h.set_of_notMem, h.deleted_of_notMem, h.named⟩
  · rw [← hvalue k hk]
    exact h.set_of_mem k hk
  · rw [← hvalue k hk]
    exact h.deleted_of_mem k hk

/-- The loop over the journalled keys. -/
private theorem foldlM_addFlatMutation (keys : List FlatKey) :
    ∀ {delta final : FlatDelta} {K : Set FlatKey}, DeltaOf previous value K delta →
      keys.foldlM (fun delta k => addFlatMutation previous delta k (value k)) delta = .ok final →
      DeltaOf previous value (K ∪ {k | k ∈ keys}) final := by
  induction keys with
  | nil =>
    intro delta final K hdelta hfold
    cases hfold
    simpa using hdelta
  | cons k rest ih =>
    intro delta final K hdelta hfold
    rw [List.foldlM_cons, bind_ok] at hfold
    obtain ⟨next, hadd, hfold⟩ := hfold
    refine (ih (hdelta.add hadd) hfold).congr ?_ fun _ _ => rfl
    ext other
    simp only [Set.mem_union, Set.mem_insert_iff, Set.mem_ofPred_eq, List.mem_cons]
    tauto

/-- The loop ends exactly where no journalled key is empty. -/
private theorem foldlM_addFlatMutation_ok (keys : List FlatKey) (delta : FlatDelta) :
    (∃ final, keys.foldlM (fun delta k => addFlatMutation previous delta k (value k)) delta = .ok final) ↔
      ∀ k ∈ keys, k.bytes.length ≠ 0 := by
  induction keys generalizing delta with
  | nil => exact ⟨fun _ k hk => (nomatch hk), fun _ => ⟨delta, rfl⟩⟩
  | cons k rest ih =>
    constructor
    · rintro ⟨final, hfold⟩
      rw [List.foldlM_cons, bind_ok] at hfold
      obtain ⟨next, hadd, hfold⟩ := hfold
      exact List.forall_mem_cons.mpr ⟨(addFlatMutation_ok hadd).1, (ih next).mp ⟨final, hfold⟩⟩
    · intro hkeys
      obtain ⟨hk, hrest⟩ := List.forall_mem_cons.mp hkeys
      obtain ⟨next, hadd⟩ : ∃ next, addFlatMutation previous delta k (value k) = .ok next := by
        simp only [addFlatMutation, bind_ok, refuseIf_ok, exists_const, pure_eq_ok, Except.ok.injEq]
        exact ⟨_, hk, rfl⟩
      obtain ⟨final, hfold⟩ := (ih next).mpr hrest
      exact ⟨final, by rw [List.foldlM_cons, hadd]; exact hfold⟩

end Delta

/-! ### The journal's delta is the difference -/

private theorem sortedKeys_filterKeys {ν : Type} (p : String → Bool) (m : GoMap String ν) :
    (GoMap.filterKeys p m).sortedKeys = m.sortedKeys.filter p := by
  refine List.Perm.eq_of_pairwise' (GoMap.pairwise_sortedKeys _) ((GoMap.pairwise_sortedKeys m).filter p) ?_
  refine (List.perm_ext_iff_of_nodup (GoMap.nodup_sortedKeys _) ((GoMap.nodup_sortedKeys m).filter p)).mpr fun id => ?_
  rw [List.mem_filter, GoMap.mem_sortedKeys, GoMap.mem_sortedKeys, ← Finmap.lookup_isSome, GoMap.lookup_filterKeys,
    ← Finmap.lookup_isSome]
  by_cases hp : p id = true <;> simp [hp]

section Difference

variable {s s' : Store} {previous next : FlatState}

theorem lookup_diffFlatState_sets (hnext : Flattens s'.snapshot next) (k : FlatKey) :
    (diffFlatState previous next).1.lookup k.id = setEntry previous k (flatValue s'.snapshot k) := by
  have hlookup := hnext.lookup k
  unfold diffFlatState
  simp only
  rw [GoMap.lookup_filterKeys, hlookup]
  cases hvalue : flatValue s'.snapshot k with
  | none => simp [setEntry]
  | some raw =>
    have hget : GoMap.get next k.id = k.entry raw := by rw [GoMap.get, hlookup, hvalue]; rfl
    rw [hget]
    by_cases hsame : (previous.lookup k.id).map FlatStateEntry.value = some (utf8Bytes raw)
    · have hkept : (previous.lookup k.id).map FlatStateEntry.value = some (k.entry raw).value := hsame
      rw [setEntry, Option.bind_some, if_pos hsame, if_neg (by simp [hkept])]
    · have hchanged : (previous.lookup k.id).map FlatStateEntry.value ≠ some (k.entry raw).value := hsame
      simp only [setEntry, Option.bind_some, if_neg hsame, decide_eq_true hchanged, if_true, Option.map_some]

/-- The deletions of a difference, in the order of their ids. -/
theorem diffFlatState_deletes (hprevious : Flattens s.snapshot previous) :
    (diffFlatState previous next).2 = flatEntriesSorted (GoMap.filterKeys (fun id => id ∉ next) previous) := by
  have hid : ∀ id ∈ previous, flatStateID (GoMap.get previous id).kind (GoMap.get previous id).key = id := by
    intro id hid
    obtain ⟨k, rfl⟩ := hprevious.named id hid
    obtain ⟨entry, hentry⟩ := Finmap.mem_iff.mp hid
    have hlookup := hprevious.lookup k
    rw [hentry] at hlookup
    obtain ⟨raw, -, rfl⟩ := Option.map_eq_some_iff.mp hlookup.symm
    rw [GoMap.get, hentry]
    rfl
  unfold diffFlatState flatEntriesSorted
  simp only
  rw [sortedKeys_filterKeys, List.Pairwise.insertionSort_eq]
  · refine List.map_congr_left fun id hmem => ?_
    rw [GoMap.get_filterKeys, if_pos (List.mem_filter.mp hmem).2]
  · refine List.pairwise_map.mpr ?_
    refine ((GoMap.pairwise_sortedKeys previous).filter _).imp_of_mem fun {left right} hleft hright hle => ?_
    unfold FlatStateEntry.le
    rwa [hid left (GoMap.mem_sortedKeys.mp (List.mem_filter.mp hleft).1),
      hid right (GoMap.mem_sortedKeys.mp (List.mem_filter.mp hright).1)]

/-- An entry that is not journalled is neither set nor deleted. -/
theorem unmarked_unchanged (hjournals : Journals s s') (hprevious : Flattens s.snapshot previous) {k : FlatKey}
    (hk : ¬Marks s'.mutations k) : setEntry previous k (flatValue s'.snapshot k) = none ∧
      deletedEntry previous k (flatValue s'.snapshot k) = none := by
  have hlookup := hprevious.lookup k
  rw [hjournals.same k hk]
  cases hvalue : flatValue s.snapshot k with
  | none =>
    rw [hvalue] at hlookup
    exact ⟨rfl, hlookup⟩
  | some raw =>
    rw [hvalue] at hlookup
    have hsame : (previous.lookup k.id).map FlatStateEntry.value = some (utf8Bytes raw) := by rw [hlookup]; rfl
    exact ⟨by simp only [setEntry, Option.bind_some, if_pos hsame], rfl⟩

/-- A journal that names every change, and no empty key, yields the difference of the two flat states. -/
theorem flatDelta_eq_diff (hjournals : Journals s s') (hcanonical : CanonicalJournal s'.mutations)
    (hkeys : ∀ k, Marks s'.mutations k → k.bytes.length ≠ 0) (hprevious : Flattens s.snapshot previous)
    (hnext : Flattens s'.snapshot next) :
    flatDeltaFromStoreMutations previous s' = .ok (diffFlatState previous next) := by
  obtain ⟨delta, hfold⟩ := (@foldlM_addFlatMutation_ok previous (readFlatValue s') (mutatedKeys s'.mutations) {}).mpr
    fun k hk => hkeys k (mem_mutatedKeys.mp hk)
  have hdelta : DeltaOf previous (flatValue s'.snapshot) {k | Marks s'.mutations k} delta := by
    refine (foldlM_addFlatMutation _ (deltaOf_empty previous (readFlatValue s')) hfold).congr ?_ fun k hk => ?_
    · ext k
      simp [mem_mutatedKeys]
    · refine readFlatValue_eq hcanonical (mem_mutatedKeys.mp ?_)
      simpa using hk
  have hsets : delta.sets = (diffFlatState previous next).1 := by
    apply Finmap.ext_lookup
    intro id
    by_cases hname : ∃ k : FlatKey, id = k.id
    · obtain ⟨k, rfl⟩ := hname
      rw [lookup_diffFlatState_sets hnext]
      by_cases hk : Marks s'.mutations k
      · exact hdelta.set_of_mem k hk
      · rw [(unmarked_unchanged hjournals hprevious hk).1]
        exact hdelta.set_of_notMem k hk
    · have hnone : id ∉ next := fun hid => hname (hnext.named id hid)
      rw [Finmap.lookup_eq_none.mpr fun hid => hname (hdelta.named id (.inl hid))]
      unfold diffFlatState
      simp only
      rw [GoMap.lookup_filterKeys, Finmap.lookup_eq_none.mpr hnone, ite_self]
  have hdeletes : delta.deletes = GoMap.filterKeys (fun id => id ∉ next) previous := by
    apply Finmap.ext_lookup
    intro id
    rw [GoMap.lookup_filterKeys]
    by_cases hname : ∃ k : FlatKey, id = k.id
    · obtain ⟨k, rfl⟩ := hname
      have hdeleted : delta.deletes.lookup k.id = deletedEntry previous k (flatValue s'.snapshot k) := by
        by_cases hk : Marks s'.mutations k
        · exact hdelta.deleted_of_mem k hk
        · rw [(unmarked_unchanged hjournals hprevious hk).2]
          exact hdelta.deleted_of_notMem k hk
      have hlookup := hnext.lookup k
      rw [hdeleted, deletedEntry]
      cases hvalue : flatValue s'.snapshot k with
      | none =>
        rw [hvalue] at hlookup
        rw [if_pos (decide_eq_true (Finmap.lookup_eq_none.mp hlookup))]
        rfl
      | some raw =>
        rw [hvalue] at hlookup
        have hmem : k.id ∈ next := Finmap.mem_of_lookup_eq_some hlookup
        simp [hmem]
    · rw [Finmap.lookup_eq_none.mpr fun hid => hname (hdelta.named id (.inr hid)),
        Finmap.lookup_eq_none.mpr fun hid => hname (hprevious.named id hid), ite_self]
  simp only [flatDeltaFromStoreMutations, bind_ok, pure_eq_ok, Except.ok.injEq]
  refine ⟨delta, hfold, ?_⟩
  rw [hsets, hdeletes, ← diffFlatState_deletes hprevious]

/-- What the journal does not name, the delta does not set. -/
theorem flatDelta_sets_of_unmarked {sets : FlatState} {deletes : List FlatStateEntry}
    (h : flatDeltaFromStoreMutations previous s = .ok (sets, deletes)) {k : FlatKey} (hk : ¬Marks s.mutations k) :
    sets.lookup k.id = none := by
  simp only [flatDeltaFromStoreMutations, bind_ok, pure_eq_ok, Except.ok.injEq, Prod.mk.injEq] at h
  obtain ⟨delta, hfold, rfl, -⟩ := h
  refine (foldlM_addFlatMutation _ (deltaOf_empty previous (readFlatValue s)) hfold).set_of_notMem k fun hmem => hk ?_
  exact mem_mutatedKeys.mp (by simpa using hmem)

end Difference

end ChainLab.Abci
