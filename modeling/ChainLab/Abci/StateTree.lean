import ChainLab.Abci.Journal

/-! A tree brought up to date at the journalled entries commits to the store, and has the root of a tree built
from the store alone. -/

namespace ChainLab.Abci

open ChainLab.Lib ChainLab.Types ChainLab.Crypto ChainLab.State ChainLab.Proof

/-- The leaf of an entry. -/
def leafValue (snapshot : Snapshot) (k : FlatKey) : Option (List UInt8) :=
  (flatValue snapshot k).map fun value => flatCommitmentLeaf (k.entry value)

/-- A map of leaves that is up to date with a snapshot outside the stale entries. -/
structure Commits (snapshot : Snapshot) (stale : Set FlatKey) (m : GoMap String (List UInt8)) : Prop where
  fresh : ∀ k ∉ stale, m.lookup k.id = leafValue snapshot k
  named : ∀ id ∈ m, ∃ k : FlatKey, id = k.id ∧ k.bytes.length ≠ 0

namespace Commits

variable {snapshot : Snapshot} {stale : Set FlatKey} {m m' : GoMap String (List UInt8)} {k : FlatKey}

theorem mono {stale' : Set FlatKey} (h : Commits snapshot stale m) (hstale : stale ⊆ stale') :
    Commits snapshot stale' m :=
  ⟨fun k hk => h.fresh k fun hmem => hk (hstale hmem), h.named⟩

theorem insert {value : JsonText} (h : Commits snapshot stale m) (hvalue : flatValue snapshot k = some value)
    (hbytes : k.bytes.length ≠ 0) :
    Commits snapshot (stale \ {k}) (m.insert k.id (flatCommitmentLeaf (k.entry value))) where
  fresh k' hk' := by
    rw [GoMap.lookup_insert_if]
    split
    · next heq =>
      rw [FlatKey.id_injective heq, leafValue, hvalue]
      rfl
    · next hne =>
      refine h.fresh k' fun hmem => hk' ⟨hmem, ?_⟩
      rintro rfl
      exact hne rfl
  named id hid := by
    rcases Finmap.mem_insert.mp hid with rfl | hid
    · exact ⟨k, rfl, hbytes⟩
    · exact h.named id hid

theorem erase (h : Commits snapshot stale m) (hvalue : flatValue snapshot k = none) :
    Commits snapshot (stale \ {k}) (m.erase k.id) where
  fresh k' hk' := by
    rw [GoMap.lookup_erase_if]
    split
    · next heq =>
      rw [FlatKey.id_injective heq, leafValue, hvalue]
      rfl
    · next hne =>
      refine h.fresh k' fun hmem => hk' ⟨hmem, ?_⟩
      rintro rfl
      exact hne rfl
  named id hid := h.named id (Finmap.mem_erase.mp hid).2

/-- Writes make the entries they change stale, and those are journalled. -/
theorem journals {s s' : Store} (h : Commits s.snapshot {k | Marks s.mutations k} m) (hwrites : Journals s s') :
    Commits s'.snapshot {k | Marks s'.mutations k} m where
  fresh k hk := by
    rw [h.fresh k fun hmarked => hk (hwrites.mono k hmarked), leafValue, leafValue, hwrites.same k hk]
  named := h.named

end Commits

section Tree

variable [Primitives] {trees trees' : SparseHeap} {tree : Nat} {snapshot : Snapshot} {stale : Set FlatKey}
  {m : GoMap String (List UInt8)} {k : FlatKey}

/-- A tree object that commits to a snapshot but for some stale entries. -/
def HoldsState (trees : SparseHeap) (tree : Nat) (snapshot : Snapshot) (stale : Set FlatKey) : Prop :=
  ∃ m, Holds trees tree m ∧ Commits snapshot stale m

theorem setFlatSparseEntry_holds {value : JsonText} (h : HoldsState trees tree snapshot stale)
    (hp : ParentsOlder trees.objects) (hvalue : flatValue snapshot k = some value) (hbytes : k.bytes.length ≠ 0)
    (hset : setFlatSparseEntry trees tree (k.entry value) = .ok trees') :
    Touches tree trees trees' ∧ HoldsState trees' tree snapshot (stale \ {k}) := by
  obtain ⟨m, hholds, hcommits⟩ := h
  obtain ⟨htouch, hholds'⟩ := hholds.set hp hset
  exact ⟨htouch, _, hholds', hcommits.insert hvalue hbytes⟩

theorem setFlatSparseValue_holds (h : HoldsState trees tree snapshot stale) (hp : ParentsOlder trees.objects)
    (hset : setFlatSparseValue trees tree k (flatValue snapshot k) = .ok trees') :
    Touches tree trees trees' ∧ HoldsState trees' tree snapshot (stale \ {k}) := by
  simp only [setFlatSparseValue, bind_ok, refuseIf_ok, exists_const] at hset
  obtain ⟨hbytes, hset⟩ := hset
  cases hvalue : flatValue snapshot k with
  | none =>
    rw [hvalue] at hset
    obtain ⟨m, hholds, hcommits⟩ := h
    obtain ⟨htouch, hholds'⟩ := hholds.delete hp hset
    exact ⟨htouch, _, hholds', hcommits.erase hvalue⟩
  | some value =>
    rw [hvalue] at hset
    exact setFlatSparseEntry_holds h hp hvalue hbytes hset

/-- The loop over entries to bring up to date. -/
private theorem foldlM_setFlatSparseValue {value : FlatKey → Option JsonText} (keys : List FlatKey)
    (hvalue : ∀ k ∈ keys, value k = flatValue snapshot k) :
    ∀ (trees : SparseHeap) (stale : Set FlatKey), ParentsOlder trees.objects → HoldsState trees tree snapshot stale →
      keys.foldlM (fun trees k => setFlatSparseValue trees tree k (value k)) trees = .ok trees' →
      Touches tree trees trees' ∧ HoldsState trees' tree snapshot (stale \ {k | k ∈ keys}) := by
  induction keys with
  | nil =>
    intro trees stale hp h hfold
    cases hfold
    exact ⟨.refl, by simpa using h⟩
  | cons k rest ih =>
    intro trees stale hp h hfold
    rw [List.foldlM_cons, bind_ok] at hfold
    obtain ⟨next, hset, hfold⟩ := hfold
    rw [hvalue k List.mem_cons_self] at hset
    obtain ⟨htouch, hnext⟩ := setFlatSparseValue_holds h hp hset
    obtain ⟨htouch', hdone⟩ := ih (fun other hmem => hvalue other (List.mem_cons_of_mem _ hmem)) next (stale \ {k})
      (htouch.parentsOlder hp) hnext hfold
    refine ⟨htouch.trans htouch', ?_⟩
    obtain ⟨m, hholds, hcommits⟩ := hdone
    refine ⟨m, hholds, hcommits.mono fun other hother => ?_⟩
    obtain ⟨⟨hstale, hne⟩, hrest⟩ := hother
    exact ⟨hstale, fun hmem => (List.mem_cons.mp hmem).elim hne hrest⟩

/-- A tree that was up to date but for the journalled entries is brought up to date. -/
theorem applyStoreMutationsToSparseTree_holds {store : Store} (hcanonical : CanonicalJournal store.mutations)
    (hp : ParentsOlder trees.objects) (h : HoldsState trees tree store.snapshot {k | Marks store.mutations k})
    (happly : applyStoreMutationsToSparseTree trees tree store = .ok trees') :
    Touches tree trees trees' ∧ HoldsState trees' tree store.snapshot ∅ := by
  obtain ⟨htouch, m, hholds, hcommits⟩ := foldlM_setFlatSparseValue (mutatedKeys store.mutations)
    (fun k hk => readFlatValue_eq hcanonical (mem_mutatedKeys.mp hk)) trees _ hp h happly
  refine ⟨htouch, m, hholds, hcommits.mono fun k hk => ?_⟩
  exact hk.2 (mem_mutatedKeys.mpr hk.1)

/-! ### Fresh trees -/

omit [Primitives] in
private theorem mem_flatEntriesSorted {flat : FlatState} {entry : FlatStateEntry} :
    entry ∈ flatEntriesSorted flat ↔ ∃ id, flat.lookup id = some entry := by
  unfold flatEntriesSorted
  simp only [List.mem_map, GoMap.mem_sortedKeys]
  constructor
  · rintro ⟨id, hid, rfl⟩
    obtain ⟨value, hvalue⟩ := Finmap.mem_iff.mp hid
    exact ⟨id, by simp [GoMap.get, hvalue]⟩
  · rintro ⟨id, hid⟩
    exact ⟨id, Finmap.mem_of_lookup_eq_some hid, by simp [GoMap.get, hid]⟩

omit [Primitives] in
/-- The entries of a flat state are those of the snapshot it was made from. -/
theorem Flattens.mem {flat : FlatState} (h : Flattens snapshot flat) {entry : FlatStateEntry} :
    entry ∈ flatEntriesSorted flat ↔ ∃ k value, flatValue snapshot k = some value ∧ entry = k.entry value := by
  rw [mem_flatEntriesSorted]
  constructor
  · rintro ⟨id, hid⟩
    obtain ⟨k, rfl⟩ := h.named id (Finmap.mem_of_lookup_eq_some hid)
    rw [h.lookup] at hid
    obtain ⟨value, hvalue, rfl⟩ := Option.map_eq_some_iff.mp hid
    exact ⟨k, value, hvalue, rfl⟩
  · rintro ⟨k, value, hvalue, rfl⟩
    exact ⟨k.id, by rw [h.lookup, hvalue]; rfl⟩

private theorem foldlM_setFlatSparseEntry (entries : List FlatStateEntry)
    (hentries : ∀ entry ∈ entries, ∃ k value, flatValue snapshot k = some value ∧ k.bytes.length ≠ 0 ∧
      entry = k.entry value) :
    ∀ (trees : SparseHeap) (stale : Set FlatKey), ParentsOlder trees.objects → HoldsState trees tree snapshot stale →
      entries.foldlM (fun trees entry => setFlatSparseEntry trees tree entry) trees = .ok trees' →
      Touches tree trees trees' ∧
        HoldsState trees' tree snapshot (stale \ {k | ∃ value, k.entry value ∈ entries}) := by
  induction entries with
  | nil =>
    intro trees stale hp h hfold
    cases hfold
    exact ⟨.refl, by simpa using h⟩
  | cons entry rest ih =>
    intro trees stale hp h hfold
    rw [List.foldlM_cons, bind_ok] at hfold
    obtain ⟨next, hset, hfold⟩ := hfold
    obtain ⟨k, value, hvalue, hbytes, rfl⟩ := hentries entry List.mem_cons_self
    obtain ⟨htouch, hnext⟩ := setFlatSparseEntry_holds h hp hvalue hbytes hset
    obtain ⟨htouch', m, hholds, hcommits⟩ := ih (fun other hmem => hentries other (List.mem_cons_of_mem _ hmem)) next
      (stale \ {k}) (htouch.parentsOlder hp) hnext hfold
    refine ⟨htouch.trans htouch', m, hholds, hcommits.mono fun other hother => ?_⟩
    obtain ⟨⟨hstale, hne⟩, hrest⟩ := hother
    refine ⟨hstale, fun ⟨value', hmem⟩ => ?_⟩
    rcases List.mem_cons.mp hmem with heq | hmem
    · obtain ⟨hkind, hkey, -⟩ := FlatStateEntry.mk.inj heq
      exact hne (FlatKey.bytes_inj hkind hkey)
    · exact hrest ⟨value', hmem⟩

omit [Primitives] in
private theorem validateDomain_sparseState : validateDomain domainSparseState = .ok () := by decide

/-- A tree built from a store commits to it. -/
theorem buildStoreSparseTree_holds {store : Store} (h : buildStoreSparseTree store = .ok trees) :
    trees.domain = domainSparseState ∧ ParentsOlder trees.objects ∧ HoldsState trees 0 store.snapshot ∅ := by
  simp only [buildStoreSparseTree, buildFlatSparseTree, newSparseTree, bind_ok, pure_eq_ok, Except.ok.injEq] at h
  obtain ⟨flat, hflat, start, ⟨_, -, rfl⟩, hfold⟩ := h
  have hflattens := flattens_of_ok hflat
  have hempty : HoldsState { domain := domainSparseState, objects := [{}] } 0 store.snapshot
      {k | flatValue store.snapshot k ≠ none} := by
    refine ⟨∅, ⟨Nat.zero_lt_one, ∅, represents_new domainSparseState, fun path leaf => by simp⟩, fun k hk => ?_,
      fun id hid => absurd hid Finmap.notMem_empty⟩
    rw [leafValue, not_not.mp hk]
    rfl
  have hentries : ∀ entry ∈ flatEntriesSorted flat, ∃ k value, flatValue store.snapshot k = some value ∧
      k.bytes.length ≠ 0 ∧ entry = k.entry value := by
    intro entry hmem
    obtain ⟨k, value, hvalue, rfl⟩ := hflattens.mem.mp hmem
    exact ⟨k, value, hvalue, bytes_of_flattenStateSnapshot hflat hvalue, rfl⟩
  have hstart : ParentsOlder [({} : SparseTree)] := ⟨by simp, trivial⟩
  obtain ⟨htouch, m, hholds, hcommits⟩ := foldlM_setFlatSparseEntry _ hentries _ _ hstart hempty hfold
  refine ⟨htouch.1, htouch.parentsOlder hstart, m, hholds, hcommits.mono fun k hk => ?_⟩
  obtain ⟨value, hvalue⟩ := Option.ne_none_iff_exists'.mp hk.1
  exact hk.2 ⟨value, hflattens.mem.mpr ⟨k, value, hvalue, rfl⟩⟩

/-- A tree that commits to a store has the root of the tree built from the store, which is built without error. -/
theorem HoldsState.rebuild {store : Store} (h : HoldsState trees tree store.snapshot ∅)
    (hdomain : trees.domain = domainSparseState) :
    ∃ fresh, buildStoreSparseTree store = .ok fresh ∧ fresh.root 0 = trees.root tree := by
  obtain ⟨m, hholds, hcommits⟩ := h
  obtain ⟨flat, hflat, hflattens⟩ := @flattenStateSnapshot_ok store.snapshot fun k value hvalue => by
    have hlookup := hcommits.fresh k (Set.notMem_empty k)
    rw [leafValue, hvalue, Option.map_some] at hlookup
    obtain ⟨k', hid, hbytes⟩ := hcommits.named k.id (Finmap.mem_of_lookup_eq_some hlookup)
    rw [FlatKey.id_injective hid]
    exact hbytes
  let entries := (flatEntriesSorted flat).map fun entry => (flatStateID entry.kind entry.key, flatCommitmentLeaf entry)
  have hentries : ∀ id leaf, (id, leaf) ∈ entries ↔ m.lookup id = some leaf := by
    intro id leaf
    constructor
    · intro hmem
      obtain ⟨entry, hentry, heq⟩ := List.mem_map.mp hmem
      obtain ⟨k, value, hvalue, rfl⟩ := hflattens.mem.mp hentry
      obtain ⟨rfl, rfl⟩ := Prod.mk.inj heq
      have hlookup := hcommits.fresh k (Set.notMem_empty k)
      rwa [leafValue, hvalue] at hlookup
    · intro hlookup
      obtain ⟨k, rfl, -⟩ := hcommits.named id (Finmap.mem_of_lookup_eq_some hlookup)
      rw [hcommits.fresh k (Set.notMem_empty k)] at hlookup
      obtain ⟨value, hvalue, rfl⟩ := Option.map_eq_some_iff.mp hlookup
      exact List.mem_map.mpr ⟨k.entry value, hflattens.mem.mpr ⟨k, value, hvalue, rfl⟩, rfl⟩
  obtain ⟨fresh, hbuild, hfresh, hholds'⟩ := hholds.build (hdomain ▸ validateDomain_sparseState) entries hentries
  refine ⟨fresh, ?_, (hholds.answers hholds' hfresh).1⟩
  rw [hdomain, buildSparseTree] at hbuild
  simp only [entries, List.foldlM_map] at hbuild
  rw [buildStoreSparseTree, hflat]
  exact hbuild

/-! ### Success -/

/-- Entries that a tree can be written at, together with those it has: their ids are valid and have different paths, and the
leaves of those to write are not too large. -/
def Writable (held keys : List FlatKey) (value : FlatKey → Option JsonText) : Prop :=
  (∀ k ∈ held ++ keys, ∀ k' ∈ keys, sparsePath domainSparseState k.id = sparsePath domainSparseState k'.id → k.id = k'.id) ∧
    ∀ k ∈ keys, k.bytes.length ≠ 0 ∧ validateSparseKey k.id = .ok () ∧
      ∀ text ∈ value k, 0 < (flatCommitmentLeaf (k.entry text)).length ∧
        (flatCommitmentLeaf (k.entry text)).length ≤ maxSparseValue

instance (held keys : List FlatKey) (value : FlatKey → Option JsonText) : Decidable (Writable held keys value) :=
  inferInstanceAs (Decidable (_ ∧ _))

/-- Writable entries are written one after the other. -/
theorem Writable.foldlM {value : FlatKey → Option JsonText} (keys : List FlatKey) :
    ∀ {held : List FlatKey} {trees : SparseHeap} {m : GoMap String (List UInt8)}, Writable held keys value →
      trees.domain = domainSparseState → ParentsOlder trees.objects → Holds trees tree m →
      (∀ id ∈ m, ∃ k ∈ held, id = k.id) →
      ∃ trees', keys.foldlM (fun trees k => setFlatSparseValue trees tree k (value k)) trees = .ok trees' := by
  induction keys with
  | nil => exact fun _ _ _ _ _ => ⟨_, rfl⟩
  | cons k rest ih =>
    intro held trees m hwritable hdomain hp hholds hheld
    obtain ⟨hbytes, hkey, hsize⟩ := hwritable.2 k List.mem_cons_self
    have hpath : ∀ id ∈ m, sparsePath trees.domain id = sparsePath trees.domain k.id → id = k.id := by
      intro id hid hsame
      obtain ⟨other, hother, rfl⟩ := hheld id hid
      rw [hdomain] at hsame
      exact hwritable.1 other (List.mem_append_left _ hother) k List.mem_cons_self hsame
    obtain ⟨-, hdelete, hset⟩ := hholds.calls hkey hpath
    -- the entry is held from now on
    have hrest : Writable (k :: held) rest value := by
      refine ⟨fun a ha b hb => hwritable.1 a ?_ b (List.mem_cons_of_mem _ hb), fun b hb =>
        hwritable.2 b (List.mem_cons_of_mem _ hb)⟩
      simp only [List.cons_append, List.mem_cons, List.mem_append] at ha ⊢
      tauto
    have hwritten : ∃ next m', setFlatSparseValue trees tree k (value k) = .ok next ∧ Touches tree trees next ∧
        Holds next tree m' ∧ ∀ id ∈ m', id = k.id ∨ id ∈ m := by
      simp only [setFlatSparseValue, bind_ok, refuseIf_ok, exists_const]
      cases hvalue : value k with
      | none =>
        obtain ⟨next, hnext⟩ := hdelete
        obtain ⟨htouch, hholds'⟩ := hholds.delete hp hnext
        exact ⟨next, _, ⟨hbytes, hnext⟩, htouch, hholds', fun id hid => .inr (Finmap.mem_erase.mp hid).2⟩
      | some text =>
        obtain ⟨hpositive, hlimit⟩ := hsize text hvalue
        obtain ⟨next, hnext⟩ := hset _ hpositive hlimit
        obtain ⟨htouch, hholds'⟩ := hholds.set hp hnext
        exact ⟨next, _, ⟨hbytes, hnext⟩, htouch, hholds', fun id hid => Finmap.mem_insert.mp hid⟩
    obtain ⟨next, m', hnext, htouch, hholds', hmem⟩ := hwritten
    obtain ⟨trees', hfold⟩ := ih hrest (htouch.1.trans hdomain) (htouch.parentsOlder hp) hholds' (fun id hid => by
      rcases hmem id hid with rfl | hid
      · exact ⟨k, List.mem_cons_self, rfl⟩
      · obtain ⟨other, hother, rfl⟩ := hheld id hid
        exact ⟨other, List.mem_cons_of_mem _ hother, rfl⟩)
    exact ⟨trees', by rw [List.foldlM_cons, hnext]; exact hfold⟩

/-- The entries of a snapshot. -/
def flatKeys (snapshot : Snapshot) : List FlatKey := (flatEntries snapshot).map Prod.fst

omit [Primitives] in
theorem mem_flatKeys : k ∈ flatKeys snapshot ↔ flatValue snapshot k ≠ none := by
  rw [Option.ne_none_iff_exists']
  simp only [flatKeys, List.mem_map, Prod.exists, exists_and_right, exists_eq_right, mem_flatEntries]

theorem applyStoreMutationsToSparseTree_ok {store : Store} (h : HoldsState trees tree snapshot ∅)
    (hdomain : trees.domain = domainSparseState) (hp : ParentsOlder trees.objects)
    (hwritable : Writable (flatKeys snapshot) (mutatedKeys store.mutations) (readFlatValue store)) :
    ∃ trees', applyStoreMutationsToSparseTree trees tree store = .ok trees' := by
  obtain ⟨m, hholds, hcommits⟩ := h
  refine hwritable.foldlM _ hdomain hp hholds fun id hid => ?_
  obtain ⟨k, rfl, -⟩ := hcommits.named id hid
  have hfresh := hcommits.fresh k (Set.notMem_empty k)
  obtain ⟨leaf, hleaf⟩ := Finmap.mem_iff.mp hid
  refine ⟨k, mem_flatKeys.mpr fun hnone => ?_, rfl⟩
  rw [hleaf, leafValue, hnone] at hfresh
  cases hfresh

theorem buildStoreSparseTree_ok {store : Store}
    (hwritable : Writable [] (flatKeys store.snapshot) (flatValue store.snapshot)) :
    ∃ trees, buildStoreSparseTree store = .ok trees := by
  have hempty : Holds { domain := domainSparseState, objects := [{}] } 0 ∅ :=
    ⟨Nat.zero_lt_one, ∅, represents_new domainSparseState, fun path leaf => by simp⟩
  have hstart : ParentsOlder [({} : SparseTree)] := ⟨by simp, trivial⟩
  obtain ⟨trees, hfold⟩ := hwritable.foldlM _ rfl hstart hempty fun id hid => absurd hid Finmap.notMem_empty
  obtain ⟨htouch, m, hholds, hcommits⟩ := foldlM_setFlatSparseValue _ (fun _ _ => rfl) _
    {k | flatValue store.snapshot k ≠ none} hstart ⟨∅, hempty, fun k hk => by
      rw [leafValue, not_not.mp hk]
      rfl, fun id hid => absurd hid Finmap.notMem_empty⟩ hfold
  obtain ⟨fresh, hbuild, -⟩ := HoldsState.rebuild ⟨m, hholds, hcommits.mono fun k hk =>
    hk.2 (mem_flatKeys.mpr hk.1)⟩ htouch.1
  exact ⟨fresh, hbuild⟩

end Tree

end ChainLab.Abci
