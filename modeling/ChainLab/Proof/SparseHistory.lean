import ChainLab.Crypto.Checksum
import ChainLab.Proof.SparseMap

/-! Trees as their users handle them: writes, clones and publications in any order. What a tree answers
depends on the key-value map it holds and not on how it came to hold it. -/

namespace ChainLab.Proof

open ChainLab.Lib ChainLab.Types ChainLab.Crypto

section Histories

variable [Primitives]

/-! ### Transport between objects -/

/-- An object that answers like another represents what the other represents. -/
theorem Represents.congr {h h' : SparseHeap} {id id' : Nat} {m : GoMap Digest SparseLeaf} (hr : Represents h id m)
    (hdomain : h'.domain = h.domain) (hnode : ∀ key, h'.node id' key = h.node id key)
    (hleaf : ∀ path, h'.leaf id' path = h.leaf id path) (hcount : h'.entryCount id' = h.entryCount id) :
    Represents h' id' m where
  leaf path := by rw [hleaf, hr.leaf]
  node path d hd := by
    have := hr.node path d hd
    unfold SparseHeap.nodeDigest at this ⊢
    rw [hnode, hdomain, this]
  count := by rw [hcount, hr.count]
  keyed := by rw [hdomain]; exact hr.keyed

/-- A map is all there is to see of an object. -/
theorem Represents.answers {h h' : SparseHeap} {id id' : Nat} {m : GoMap Digest SparseLeaf} (hr : Represents h id m)
    (hr' : Represents h' id' m) (hdomain : h'.domain = h.domain) :
    h'.root id' = h.root id ∧ h'.entryCount id' = h.entryCount id ∧ ∀ key, h'.get id' key = h.get id key := by
  refine ⟨?_, by rw [hr.count, hr'.count], fun key => ?_⟩
  · have hzero : sparseNodeKeyAtDepth (List.replicate 32 0) 0 = { depth := 0, bits := List.replicate 32 0 } := rfl
    have hroot := hr.node ⟨List.replicate 32 0, rfl⟩ 0 (Nat.zero_le _)
    have hroot' := hr'.node ⟨List.replicate 32 0, rfl⟩ 0 (Nat.zero_le _)
    rw [hzero] at hroot hroot'
    unfold SparseHeap.root
    rw [hroot, hroot', hdomain]
  · unfold SparseHeap.get
    rw [hdomain, hr.leaf, hr'.leaf]

section Apart

variable {h h' : SparseHeap} {id other : Nat}

omit [Primitives] in
/-- A write to one object leaves every tree not built on it. -/
theorem Touches.apart (htouch : Touches id h h') (hid : id < h.objects.length)
    (hother : id ∉ ancestors h.objects other) (hne : other ≠ id) :
    (∀ key, h'.node other key = h.node other key) ∧ (∀ path, h'.leaf other path = h.leaf other path) ∧
      h'.entryCount other = h.entryCount other := by
  obtain ⟨-, f, -, hobjects⟩ := htouch
  refine ⟨fun key => ?_, fun path => ?_, ?_⟩
  · unfold SparseHeap.node
    rw [hobjects, resolve_updateObject_of_not_mem hother]
  · unfold SparseHeap.leaf
    rw [hobjects, resolve_updateObject_of_not_mem hother]
  · unfold SparseHeap.entryCount
    rw [hobjects, object_updateObject hid, if_neg hne]

theorem Represents.of_touches {m : GoMap Digest SparseLeaf} (hr : Represents h other m) (htouch : Touches id h h')
    (hid : id < h.objects.length) (hother : id ∉ ancestors h.objects other) (hne : other ≠ id) :
    Represents h' other m := by
  obtain ⟨hnode, hleaf, hcount⟩ := htouch.apart hid hother hne
  exact hr.congr htouch.1 hnode hleaf hcount

/-- What a parent returns does not depend on the writes to its clones. -/
theorem Touches.parent_answers (hp : ParentsOlder h.objects) (htouch : Touches id h h') (hid : id < h.objects.length)
    {parent : Nat} (hparent : (object h.objects id).parent = some parent) :
    h'.root parent = h.root parent ∧ h'.entryCount parent = h.entryCount parent ∧
      ∀ key, h'.get parent key = h.get parent key := by
  have hlt := parent_lt hp hid hparent
  have hapart : id ∉ ancestors h.objects parent := fun hmem => by
    have := ancestors_le hp hmem
    omega
  obtain ⟨hnode, hleaf, hcount⟩ := htouch.apart hid hapart (by omega)
  refine ⟨?_, hcount, fun key => ?_⟩
  · unfold SparseHeap.root SparseHeap.nodeDigest
    rw [hnode, htouch.1]
  · unfold SparseHeap.get
    rw [hleaf, htouch.1]

end Apart

/-! ### Clone -/

section Clone

variable {h : SparseHeap} {id other : Nat} {m : GoMap Digest SparseLeaf}

theorem clone_new (hr : Represents h id m) :
    Represents (h.clone id) h.objects.length m := by
  refine hr.congr rfl (fun key => ?_) (fun path => ?_) ?_
  · unfold SparseHeap.node SparseHeap.clone
    rw [resolve, if_pos rfl]
    rfl
  · unfold SparseHeap.leaf SparseHeap.clone
    rw [resolve, if_pos rfl]
    rfl
  · unfold SparseHeap.clone
    rw [SparseHeap.entryCount, object, if_pos rfl]

theorem clone_other (hother : other < h.objects.length) (hr : Represents h other m) :
    Represents (h.clone id) other m := by
  refine hr.congr rfl (fun key => ?_) (fun path => ?_) ?_
  · exact resolve_cons_of_lt hother
  · exact resolve_cons_of_lt hother
  · unfold SparseHeap.entryCount SparseHeap.clone
    simp only
    rw [object_cons_of_lt hother]

omit [Primitives] in
theorem parentsOlder_clone (hp : ParentsOlder h.objects) (hid : id < h.objects.length) :
    ParentsOlder (h.clone id).objects := by
  refine ⟨?_, hp⟩
  intro parent hparent
  obtain rfl : id = parent := by simpa using hparent
  exact hid

end Clone

/-! ### Publish -/

section Publish

omit [Primitives] in
private theorem lookup_overlay {κ ν : Type} [DecidableEq κ] (top base : GoMap κ ν) (deleted : Finset κ) (k : κ) :
    (top ∪ GoMap.filterKeys (fun key => decide (key ∉ deleted)) base).lookup k =
      (top.lookup k).elim (if k ∈ deleted then none else base.lookup k) some := by
  cases htop : top.lookup k with
  | some value =>
    rw [Finmap.lookup_union_left (Finmap.mem_of_lookup_eq_some htop), htop]
    rfl
  | none =>
    rw [Finmap.lookup_union_right (Finmap.lookup_eq_none.mp htop), GoMap.lookup_filterKeys]
    by_cases hdel : k ∈ deleted <;> simp [hdel]

omit [Primitives] in
/-- A base tree with an overlay merged into it answers like the overlay over it. -/
private theorem ownNode_merge (t base : SparseTree) (key : SparseNodeKey) :
    (SparseTree.ownNode key (SparseTree.merge t base)).getD none =
      (SparseTree.ownNode key t).getD ((SparseTree.ownNode key base).getD none) := by
  have hlookup := lookup_overlay t.nodes base.nodes t.deletedNodes key
  unfold SparseTree.ownNode
  simp only [SparseTree.merge]
  rw [hlookup]
  cases t.nodes.lookup key with
  | some value => rfl
  | none =>
    by_cases hdel : key ∈ t.deletedNodes
    · simp only [Option.elim_none, if_pos hdel]
      by_cases hbase : key ∈ base.deletedNodes <;> simp [hbase]
    · simp only [Option.elim_none, if_neg hdel]
      rfl

omit [Primitives] in
private theorem ownLeaf_merge (t base : SparseTree) (path : Digest) :
    (SparseTree.ownLeaf path (SparseTree.merge t base)).getD none =
      (SparseTree.ownLeaf path t).getD ((SparseTree.ownLeaf path base).getD none) := by
  have hlookup := lookup_overlay t.leaves base.leaves t.deletedLeaves path
  unfold SparseTree.ownLeaf
  simp only [SparseTree.merge]
  rw [hlookup]
  cases t.leaves.lookup path with
  | some value => rfl
  | none =>
    by_cases hdel : path ∈ t.deletedLeaves
    · simp only [Option.elim_none, if_pos hdel]
      by_cases hbase : path ∈ base.deletedLeaves <;> simp [hbase]
    · simp only [Option.elim_none, if_neg hdel]
      rfl

variable {h : SparseHeap}

/-- What publishing an object leaves behind: its base tree answers as it did. -/
structure Published (h : SparseHeap) (id : Nat) (h' : SparseHeap) : Prop where
  domain : h'.domain = h.domain
  length : h'.objects.length = h.objects.length
  parents : ParentsOlder h'.objects
  base_le : h.baseOf id ≤ id
  base_parent : (object h'.objects (h.baseOf id)).parent = none
  others : ∀ j ≠ h.baseOf id, object h'.objects j = object h.objects j
  node : ∀ key, h'.node (h.baseOf id) key = h.node id key
  leaf : ∀ path, h'.leaf (h.baseOf id) path = h.leaf id path
  count : h'.entryCount (h.baseOf id) = h.entryCount id

omit [Primitives] in
theorem published_publish (hp : ParentsOlder h.objects) (id : Nat) (hid : id < h.objects.length) :
    Published h id (h.publish id) := by
  -- along the chain of parents, which have smaller numbers
  induction id using Nat.strong_induction_on with
  | _ id ih =>
    have hchain := ancestors_eq hp hid
    cases hparent : (object h.objects id).parent with
    | none =>
      rw [hparent] at hchain
      have hbase : h.baseOf id = id := by unfold SparseHeap.baseOf; rw [hchain]; rfl
      have hpublish : h.publish id = h := by unfold SparseHeap.publish; rw [hchain]; rfl
      rw [hpublish]
      exact ⟨rfl, rfl, hp, by rw [hbase], by rw [hbase, hparent], fun _ _ => rfl, fun _ => by rw [hbase],
        fun _ => by rw [hbase], by rw [hbase]⟩
    | some parent =>
      have hlt := parent_lt hp hid hparent
      have hprev := ih parent hlt (by omega)
      rw [hparent] at hchain
      simp only [Option.elim_some] at hchain
      have hne : ancestors h.objects parent ≠ [] := by rw [ancestors_eq hp (by omega)]; simp
      have hbase : h.baseOf id = h.baseOf parent := by
        unfold SparseHeap.baseOf
        rw [hchain, List.getLastD_cons, List.getLastD_eq_getLast?, List.getLastD_eq_getLast?,
          List.getLast?_eq_some_getLast hne]
        rfl
      have hdrop : (ancestors h.objects id).dropLast = id :: (ancestors h.objects parent).dropLast := by
        rw [hchain, List.dropLast_cons_of_ne_nil hne]
      have hpublish : h.publish id = (h.publish parent).update (h.baseOf parent)
          (SparseTree.merge (object h.objects id)) := by
        unfold SparseHeap.publish
        rw [hdrop, hbase, SparseHeap.publishInto]
        change (h.publish parent).update _ (SparseTree.merge (object (h.publish parent).objects id)) = _
        rw [hprev.others id (by have := hprev.base_le; omega)]
        rfl
      have hmergeParent : ∀ t, (SparseTree.merge (object h.objects id) t).parent = t.parent := fun _ => rfl
      have hbaseLt : h.baseOf parent < (h.publish parent).objects.length := by
        rw [hprev.length]; have := hprev.base_le; omega
      have hself : object (h.publish id).objects (h.baseOf parent) =
          SparseTree.merge (object h.objects id) (object (h.publish parent).objects (h.baseOf parent)) := by
        rw [hpublish]
        unfold SparseHeap.update
        simp only
        rw [object_updateObject hbaseLt, if_pos rfl]
      have hparents : ParentsOlder (h.publish id).objects := by
        rw [hpublish]; exact parentsOlder_updateObject hmergeParent hprev.parents
      have hlen : (h.publish id).objects.length = h.objects.length := by
        rw [hpublish, ← hprev.length]; simp [SparseHeap.update]
      have hbaseLt' : h.baseOf parent < (h.publish id).objects.length := by
        rw [hlen, ← hprev.length]; exact hbaseLt
      have hnone : (object (h.publish id).objects (h.baseOf parent)).parent = none := by
        rw [hself]; exact hprev.base_parent
      refine ⟨?_, hlen, hparents, ?_, ?_, ?_, ?_, ?_, ?_⟩
      · rw [hpublish]; exact hprev.domain
      · rw [hbase]; have := hprev.base_le; omega
      · rw [hbase, hnone]
      · intro j hj
        rw [hbase] at hj
        rw [hpublish]
        unfold SparseHeap.update
        simp only
        rw [object_updateObject hbaseLt, if_neg hj, hprev.others j hj]
      · intro key
        have hold : (SparseTree.ownNode key (object (h.publish parent).objects (h.baseOf parent))).getD none =
            h.node parent key := by
          rw [← hprev.node key]
          unfold SparseHeap.node
          rw [resolve_eq hprev.parents hbaseLt, hprev.base_parent]
          rfl
        unfold SparseHeap.node at hold ⊢
        rw [hbase, resolve_eq hparents hbaseLt', hnone, Option.bind_none, hself, ownNode_merge, hold,
          resolve_eq hp hid, hparent, Option.bind_some]
      · intro path
        have hold : (SparseTree.ownLeaf path (object (h.publish parent).objects (h.baseOf parent))).getD none =
            h.leaf parent path := by
          rw [← hprev.leaf path]
          unfold SparseHeap.leaf
          rw [resolve_eq hprev.parents hbaseLt, hprev.base_parent]
          rfl
        unfold SparseHeap.leaf at hold ⊢
        rw [hbase, resolve_eq hparents hbaseLt', hnone, Option.bind_none, hself, ownLeaf_merge, hold,
          resolve_eq hp hid, hparent, Option.bind_some]
      · unfold SparseHeap.entryCount
        rw [hbase, hself]
        rfl

end Publish

/-! ### Sessions -/

/-- The leaves of a tree are the entries of a key-value map, each under the hash of its key. -/
def LeavesOf (domain : String) (m : GoMap String (List UInt8)) (leaves : GoMap Digest SparseLeaf) : Prop :=
  ∀ path leaf, leaves.lookup path = some leaf ↔
    sparsePath domain leaf.key = path ∧ m.lookup leaf.key = some leaf.value

/-- A tree object that holds a key-value map. -/
structure Holds (h : SparseHeap) (id : Nat) (m : GoMap String (List UInt8)) : Prop where
  mem : id < h.objects.length
  leaves : ∃ leaves, Represents h id leaves ∧ LeavesOf h.domain m leaves

theorem LeavesOf.unique {domain : String} {m : GoMap String (List UInt8)} {a b : GoMap Digest SparseLeaf}
    (ha : LeavesOf domain m a) (hb : LeavesOf domain m b) : a = b := by
  apply Finmap.ext_lookup
  intro path
  apply Option.ext
  intro leaf
  rw [ha path leaf, hb path leaf]

section Holds

variable {h h' : SparseHeap} {id other : Nat} {m : GoMap String (List UInt8)} {key : String} {value : List UInt8}

theorem Holds.leaf_iff (hm : Holds h id m) (path : Digest) (leaf : SparseLeaf) :
    h.leaf id path = some leaf ↔ sparsePath h.domain leaf.key = path ∧ m.lookup leaf.key = some leaf.value := by
  obtain ⟨leaves, hr, hleaves⟩ := hm.leaves
  rw [hr.leaf, hleaves]

/-- Two keys of a held map have different paths. -/
theorem Holds.path_inj (hm : Holds h id m) {k k' : String} {v v' : List UInt8} (hk : m.lookup k = some v)
    (hk' : m.lookup k' = some v') (hpath : sparsePath h.domain k = sparsePath h.domain k') : k = k' := by
  have hleaf := (hm.leaf_iff (sparsePath h.domain k) ⟨k, v⟩).mpr ⟨rfl, hk⟩
  have hleaf' := (hm.leaf_iff (sparsePath h.domain k) ⟨k', v'⟩).mpr ⟨hpath.symm, hk'⟩
  have hsame := Option.some.inj (hleaf.symm.trans hleaf')
  exact congrArg SparseLeaf.key hsame

/-- The entries of a held map satisfy the checks of `Set`. -/
theorem Holds.valid (hm : Holds h id m) {k : String} {v : List UInt8} (hk : m.lookup k = some v) :
    validateSparseKey k = .ok () ∧ 0 < v.length ∧ v.length ≤ maxSparseValue := by
  obtain ⟨leaves, hr, hleaves⟩ := hm.leaves
  have hleaf := (hleaves (sparsePath h.domain k) ⟨k, v⟩).mpr ⟨rfl, hk⟩
  exact (hr.keyed _ _ hleaf).2

/-- `Set` is insertion into the held map. -/
theorem Holds.set (hm : Holds h id m) (hp : ParentsOlder h.objects) (hset : h.set id key value = .ok h') :
    Touches id h h' ∧ Holds h' id (m.insert key value) := by
  obtain ⟨leaves, hr, hleaves⟩ := hm.leaves
  obtain ⟨htouch, hr'⟩ := set_spec hp hm.mem hr hset
  have hcollision := (set_ok_iff.mp ⟨h', hset⟩).2.2
  refine ⟨htouch, ⟨htouch.length ▸ hm.mem, _, hr', ?_⟩⟩
  intro path leaf
  rw [htouch.1, GoMap.lookup_insert_if]
  by_cases hpath : path = sparsePath h.domain key
  · rw [if_pos hpath, Option.some.injEq]
    constructor
    · rintro rfl
      exact ⟨hpath.symm, by rw [GoMap.lookup_insert_if, if_pos rfl]⟩
    · rintro ⟨hleafPath, hlookup⟩
      rw [GoMap.lookup_insert_if] at hlookup
      split at hlookup
      · next hkey =>
        obtain rfl := Option.some.inj hlookup
        rw [← hkey]
      · next hne =>
        -- a stored key with the same path is the key itself, or `Set` would have reported a collision
        have hstored := (hm.leaf_iff path leaf).mpr ⟨hleafPath, hlookup⟩
        rw [hpath] at hstored
        exact absurd (hcollision leaf hstored) hne
  · rw [if_neg hpath, hleaves]
    constructor
    · rintro ⟨hleafPath, hlookup⟩
      have hne : leaf.key ≠ key := fun heq => hpath (by rw [← hleafPath, heq])
      exact ⟨hleafPath, by rw [GoMap.lookup_insert_if, if_neg hne]; exact hlookup⟩
    · rintro ⟨hleafPath, hlookup⟩
      have hne : leaf.key ≠ key := fun heq => hpath (by rw [← hleafPath, heq])
      rw [GoMap.lookup_insert_if, if_neg hne] at hlookup
      exact ⟨hleafPath, hlookup⟩

/-- `Delete` is removal from the held map. -/
theorem Holds.delete (hm : Holds h id m) (hp : ParentsOlder h.objects) (hdelete : h.delete id key = .ok h') :
    Touches id h h' ∧ Holds h' id (m.erase key) := by
  obtain ⟨leaves, hr, hleaves⟩ := hm.leaves
  obtain ⟨htouch, hr'⟩ := delete_spec hp hm.mem hr hdelete
  have hcollision := (delete_ok_iff.mp ⟨h', hdelete⟩).2
  refine ⟨htouch, ⟨htouch.length ▸ hm.mem, _, hr', ?_⟩⟩
  intro path leaf
  rw [htouch.1, GoMap.lookup_erase_if, GoMap.lookup_erase_if]
  by_cases hpath : path = sparsePath h.domain key
  · rw [if_pos hpath]
    refine ⟨fun hnone => (by cases hnone), ?_⟩
    rintro ⟨hleafPath, hlookup⟩
    split at hlookup
    · cases hlookup
    · next hne =>
      have hstored := (hm.leaf_iff path leaf).mpr ⟨hleafPath, hlookup⟩
      rw [hpath] at hstored
      exact absurd (hcollision leaf hstored) hne
  · rw [if_neg hpath, hleaves]
    refine and_congr_right fun hleafPath => ?_
    rw [if_neg (fun heq => hpath (by rw [← hleafPath, heq]))]

/-- A write to one object leaves what the trees not built on it hold. -/
theorem Holds.of_touches (hm : Holds h other m) (htouch : Touches id h h') (hid : id < h.objects.length)
    (hother : id ∉ ancestors h.objects other) (hne : other ≠ id) : Holds h' other m := by
  obtain ⟨leaves, hr, hleaves⟩ := hm.leaves
  exact ⟨htouch.length ▸ hm.mem, leaves, hr.of_touches htouch hid hother hne, htouch.1 ▸ hleaves⟩

end Holds

/-- What the handles of a session stand for after a write: the written tree holds a new map, and the clones
of it, whose overlays were made for the old one, are to be discarded. -/
def afterWrite (h : SparseHeap) (maps : Nat → Option (GoMap String (List UInt8))) (id : Nat)
    (m : GoMap String (List UInt8)) : Nat → Option (GoMap String (List UInt8)) :=
  fun other => if other = id then some m else if id ∈ ancestors h.objects other then none else maps other

/-- The sequences of calls on the trees of one domain. Each handle that may still be used comes with the
key-value map its calls have spelled out; a discarded one comes with none. A call that returns an error
returns before it writes. -/
inductive Session (domain : String) : SparseHeap → (Nat → Option (GoMap String (List UInt8))) → Prop
  | new {h : SparseHeap} (hnew : newSparseTree domain = .ok h) :
    Session domain h fun id => if id = 0 then some ∅ else none
  | set {h h' : SparseHeap} {maps : Nat → Option (GoMap String (List UInt8))} {id : Nat}
    {m : GoMap String (List UInt8)} {key : String} {value : List UInt8} (before : Session domain h maps)
    (live : maps id = some m) (call : h.set id key value = .ok h') :
    Session domain h' (afterWrite h maps id (m.insert key value))
  | delete {h h' : SparseHeap} {maps : Nat → Option (GoMap String (List UInt8))} {id : Nat}
    {m : GoMap String (List UInt8)} {key : String} (before : Session domain h maps)
    (live : maps id = some m) (call : h.delete id key = .ok h') :
    Session domain h' (afterWrite h maps id (m.erase key))
  | clone {h : SparseHeap} {maps : Nat → Option (GoMap String (List UInt8))} {id : Nat}
    {m : GoMap String (List UInt8)} (before : Session domain h maps) (live : maps id = some m) :
    Session domain (h.clone id) fun other => if other = h.objects.length then some m else maps other
  | publish {h : SparseHeap} {maps : Nat → Option (GoMap String (List UInt8))} {id : Nat}
    {m : GoMap String (List UInt8)} (before : Session domain h maps) (live : maps id = some m) :
    Session domain (h.publish id) fun other => if other = h.baseOf id then some m else none

/-- What holds throughout a session. -/
structure SessionInvariant (domain : String) (h : SparseHeap) (maps : Nat → Option (GoMap String (List UInt8))) :
    Prop where
  canonical : validateDomain domain = .ok ()
  domain : h.domain = domain
  parents : ParentsOlder h.objects
  holds : ∀ id m, maps id = some m → Holds h id m

theorem SessionInvariant.write {domain : String} {h h' : SparseHeap}
    {maps : Nat → Option (GoMap String (List UInt8))} {id : Nat} {m : GoMap String (List UInt8)}
    (inv : SessionInvariant domain h maps) (hid : id < h.objects.length) (htouch : Touches id h h')
    (hm : Holds h' id m) : SessionInvariant domain h' (afterWrite h maps id m) where
  canonical := inv.canonical
  domain := htouch.1.trans inv.domain
  parents := htouch.parentsOlder inv.parents
  holds other m' hother := by
    unfold afterWrite at hother
    split at hother
    · next heq =>
      obtain rfl := Option.some.inj hother
      rw [heq]
      exact hm
    · next hne =>
      split at hother
      · cases hother
      · next hapart => exact (inv.holds other m' hother).of_touches htouch hid hapart hne

theorem Session.invariant {domain : String} {h : SparseHeap} {maps : Nat → Option (GoMap String (List UInt8))}
    (hs : Session domain h maps) : SessionInvariant domain h maps := by
  induction hs with
  | @new h hnew =>
    simp only [newSparseTree, bind_ok, pure_eq_ok, Except.ok.injEq] at hnew
    obtain ⟨_, hdomain, rfl⟩ := hnew
    refine ⟨hdomain, rfl, ⟨by simp, trivial⟩, fun id m hm => ?_⟩
    split at hm
    · next hid =>
      obtain rfl := Option.some.inj hm
      refine ⟨by simp [hid], ∅, hid ▸ represents_new domain, fun path leaf => ?_⟩
      simp
    · cases hm
  | @set h h' maps id m key value _ live call ih =>
    have hm := ih.holds id m live
    obtain ⟨htouch, hm'⟩ := hm.set ih.parents call
    exact ih.write hm.mem htouch hm'
  | @delete h h' maps id m key _ live call ih =>
    have hm := ih.holds id m live
    obtain ⟨htouch, hm'⟩ := hm.delete ih.parents call
    exact ih.write hm.mem htouch hm'
  | @clone h maps id m _ live ih =>
    have hm := ih.holds id m live
    refine ⟨ih.canonical, ih.domain, parentsOlder_clone ih.parents hm.mem, fun other m' hother => ?_⟩
    split at hother
    · next heq =>
      obtain rfl := Option.some.inj hother
      obtain ⟨leaves, hr, hleaves⟩ := hm.leaves
      exact ⟨by simp [heq, SparseHeap.clone], leaves, heq ▸ clone_new hr, hleaves⟩
    · have hm' := ih.holds other m' hother
      obtain ⟨leaves, hr, hleaves⟩ := hm'.leaves
      refine ⟨?_, leaves, clone_other hm'.mem hr, hleaves⟩
      have := hm'.mem
      simp only [SparseHeap.clone, List.length_cons]
      omega
  | @publish h maps id m _ live ih =>
    have hm := ih.holds id m live
    have hpub := published_publish ih.parents id hm.mem
    refine ⟨ih.canonical, hpub.domain.trans ih.domain, hpub.parents, fun other m' hother => ?_⟩
    split at hother
    · next heq =>
      obtain rfl := Option.some.inj hother
      obtain ⟨leaves, hr, hleaves⟩ := hm.leaves
      have hbase : h.baseOf id < (h.publish id).objects.length := by
        have := hpub.base_le
        have := hm.mem
        rw [hpub.length]
        omega
      rw [heq]
      exact ⟨hbase, leaves, hr.congr hpub.domain hpub.node hpub.leaf hpub.count, hpub.domain ▸ hleaves⟩
    · cases hother

/-! ### Fresh trees -/

/-- Adding entries of a held map to a tree that holds some of them. -/
private theorem foldlM_set {whole : GoMap String (List UInt8)} {domain : String}
    (hvalid : ∀ k v, whole.lookup k = some v →
      validateSparseKey k = .ok () ∧ 0 < v.length ∧ v.length ≤ maxSparseValue)
    (hinj : ∀ k v k' v', whole.lookup k = some v → whole.lookup k' = some v' →
      sparsePath domain k = sparsePath domain k' → k = k')
    (entries : List (String × List UInt8)) (hentries : ∀ e ∈ entries, whole.lookup e.1 = some e.2) :
    ∀ (h : SparseHeap) (m : GoMap String (List UInt8)), h.domain = domain → ParentsOlder h.objects → Holds h 0 m →
      (∀ k v, m.lookup k = some v → whole.lookup k = some v) →
      ∃ h' m', entries.foldlM (fun (h : SparseHeap) entry => h.set 0 entry.1 entry.2) h = .ok h' ∧
        h'.domain = domain ∧ Holds h' 0 m' ∧ (∀ k v, m'.lookup k = some v → whole.lookup k = some v) ∧
        (∀ k v, m.lookup k = some v → m'.lookup k = some v) ∧ ∀ e ∈ entries, m'.lookup e.1 = some e.2 := by
  -- the tree after each entry holds a larger part of the map
  induction entries with
  | nil => exact fun h m hdomain _ hm hpart => ⟨h, m, rfl, hdomain, hm, hpart, fun _ _ hk => hk, by simp⟩
  | cons e rest ih =>
    intro h m hdomain hp hm hpart
    have hentry := hentries e List.mem_cons_self
    obtain ⟨hkey, hvalue⟩ := hvalid _ _ hentry
    obtain ⟨h₁, hset⟩ : ∃ h₁, h.set 0 e.1 e.2 = .ok h₁ := by
      refine set_ok_iff.mpr ⟨hkey, hvalue, fun leaf hleaf => ?_⟩
      obtain ⟨hpath, hlookup⟩ := (hm.leaf_iff _ _).mp hleaf
      rw [hdomain] at hpath
      exact hinj _ _ _ _ (hpart _ _ hlookup) hentry hpath
    obtain ⟨htouch, hm₁⟩ := hm.set hp hset
    have hpart₁ : ∀ k v, (m.insert e.1 e.2).lookup k = some v → whole.lookup k = some v := by
      intro k v hk
      rw [GoMap.lookup_insert_if] at hk
      split at hk
      · next heq => rw [heq, hentry, hk]
      · exact hpart k v hk
    obtain ⟨h', m', hfold, hdomain', hm', hpart', hgrow, hrest⟩ :=
      ih (fun e' he' => hentries e' (List.mem_cons_of_mem _ he')) h₁ _ (htouch.1.trans hdomain)
        (htouch.parentsOlder hp) hm₁ hpart₁
    refine ⟨h', m', ?_, hdomain', hm', hpart', fun k v hk => ?_, fun e' he' => ?_⟩
    · rw [List.foldlM_cons, hset]
      exact hfold
    · apply hgrow
      rw [GoMap.lookup_insert_if]
      split
      · next heq => rw [← hentry, ← heq]; exact hpart k v hk
      · exact hk
    · rcases List.mem_cons.mp he' with rfl | he'
      · exact hgrow _ _ (by rw [GoMap.lookup_insert_if, if_pos rfl])
      · exact hrest e' he'

/-- A fresh tree built from the entries of a held map, in any order, holds that map. -/
theorem Holds.build {h : SparseHeap} {id : Nat} {m : GoMap String (List UInt8)} (hm : Holds h id m)
    (hdomain : validateDomain h.domain = .ok ()) (entries : List (String × List UInt8))
    (hentries : ∀ k v, (k, v) ∈ entries ↔ m.lookup k = some v) :
    ∃ fresh, buildSparseTree h.domain entries = .ok fresh ∧ fresh.domain = h.domain ∧ Holds fresh 0 m := by
  have hempty : Holds { domain := h.domain, objects := [{}] } 0 ∅ :=
    ⟨Nat.zero_lt_one, ∅, represents_new h.domain, fun path leaf => by simp⟩
  obtain ⟨fresh, m', hfold, hfresh, hm', hpart, -, hall⟩ :=
    foldlM_set (fun _ _ => hm.valid) (fun _ _ _ _ hk hk' => hm.path_inj hk hk') entries
      (fun e he => (hentries e.1 e.2).mp he) { domain := h.domain, objects := [{}] } ∅ rfl ⟨by simp, trivial⟩
      hempty (by simp)
  have hsame : m' = m := by
    apply Finmap.ext_lookup
    intro k
    apply Option.ext
    intro v
    exact ⟨hpart k v, fun hk => hall (k, v) ((hentries k v).mpr hk)⟩
  refine ⟨fresh, ?_, hfresh, hsame ▸ hm'⟩
  unfold buildSparseTree newSparseTree
  rw [hdomain]
  exact hfold

/-- Two trees of one domain that hold the same map answer alike. -/
theorem Holds.answers {h h' : SparseHeap} {id id' : Nat} {m : GoMap String (List UInt8)} (hm : Holds h id m)
    (hm' : Holds h' id' m) (hdomain : h'.domain = h.domain) :
    h'.root id' = h.root id ∧ h'.entryCount id' = h.entryCount id ∧ ∀ key, h'.get id' key = h.get id key := by
  obtain ⟨leaves, hr, hleaves⟩ := hm.leaves
  obtain ⟨leaves', hr', hleaves'⟩ := hm'.leaves
  rw [hdomain] at hleaves'
  obtain rfl := hleaves'.unique hleaves
  exact hr.answers hr' hdomain

/-- The calls on a key whose path no other stored key has: none reports a collision. -/
theorem Holds.calls {h : SparseHeap} {id : Nat} {m : GoMap String (List UInt8)} (hm : Holds h id m) {key : String}
    (hkey : validateSparseKey key = .ok ())
    (hpath : ∀ k ∈ m, sparsePath h.domain k = sparsePath h.domain key → k = key) :
    h.get id key = .ok (m.lookup key) ∧ (∃ h', h.delete id key = .ok h') ∧
      ∀ value : List UInt8, 0 < value.length → value.length ≤ maxSparseValue →
        ∃ h', h.set id key value = .ok h' := by
  have hleaf : ∀ leaf ∈ h.leaf id (sparsePath h.domain key), leaf.key = key := by
    intro leaf hleaf
    obtain ⟨hsame, hlookup⟩ := (hm.leaf_iff _ _).mp hleaf
    exact hpath _ (Finmap.mem_of_lookup_eq_some hlookup) hsame
  refine ⟨?_, delete_ok_iff.mpr ⟨hkey, hleaf⟩, fun value h0 h1 => set_ok_iff.mpr ⟨hkey, ⟨h0, h1⟩, hleaf⟩⟩
  have hno : ¬∃ leaf ∈ h.leaf id (sparsePath h.domain key), leaf.key ≠ key := by push Not; exact hleaf
  simp only [SparseHeap.get, bind_ok, refuseIf_ok, exists_const, pure_eq_ok, Except.ok.injEq]
  refine ⟨(), hkey, hno, ?_⟩
  apply Option.ext
  intro v
  constructor
  · intro hv
    obtain ⟨leaf, hstored, rfl⟩ := Option.map_eq_some_iff.mp hv
    have hlookup := ((hm.leaf_iff _ _).mp hstored).2
    rwa [hleaf leaf hstored] at hlookup
  · intro hv
    have hstored := (hm.leaf_iff (sparsePath h.domain key) ⟨key, v⟩).mpr ⟨rfl, hv⟩
    rw [hstored]
    rfl

/-- After any session, a tree that may still be used answers like a fresh tree built from its key-value map
in any order, the calls on keys without a colliding one succeed and read that map, and writes to a clone leave
what its parent returns. -/
theorem session_history_independent {domain : String} {h : SparseHeap}
    {maps : Nat → Option (GoMap String (List UInt8))} (hs : Session domain h maps) {id : Nat}
    {m : GoMap String (List UInt8)} (live : maps id = some m) :
    (∀ entries : List (String × List UInt8), (∀ k v, (k, v) ∈ entries ↔ m.lookup k = some v) →
      ∃ fresh, buildSparseTree domain entries = .ok fresh ∧ fresh.root 0 = h.root id ∧
        fresh.entryCount 0 = h.entryCount id ∧ ∀ key, fresh.get 0 key = h.get id key) ∧
    (∀ key, validateSparseKey key = .ok () →
      (∀ k ∈ m, sparsePath domain k = sparsePath domain key → k = key) →
      h.get id key = .ok (m.lookup key) ∧ (∃ h', h.delete id key = .ok h') ∧
        ∀ value : List UInt8, 0 < value.length → value.length ≤ maxSparseValue →
          ∃ h', h.set id key value = .ok h') ∧
    ∀ parent h', (object h.objects id).parent = some parent →
      (∃ key, (∃ value, h.set id key value = .ok h') ∨ h.delete id key = .ok h') →
      h'.root parent = h.root parent ∧ h'.entryCount parent = h.entryCount parent ∧
        ∀ key, h'.get parent key = h.get parent key := by
  have inv := hs.invariant
  have hm := inv.holds id m live
  obtain rfl := inv.domain
  refine ⟨fun entries hentries => ?_, fun key => hm.calls, fun parent h' hparent hcall => ?_⟩
  · obtain ⟨fresh, hbuild, hdomain, hfresh⟩ := hm.build inv.canonical entries hentries
    exact ⟨fresh, hbuild, hm.answers hfresh hdomain⟩
  · have htouch : Touches id h h' := by
      obtain ⟨key, ⟨value, hset⟩ | hdelete⟩ := hcall
      · exact (hm.set inv.parents hset).1
      · exact (hm.delete inv.parents hdelete).1
    exact htouch.parent_answers inv.parents hm.mem hparent

end Histories

/-! ### A balance and a nonce -/

section Published

attribute [local instance] checksumPrimitives

/-- The map of a tree with both. -/
def bothEntries : GoMap String (List UInt8) := ((∅ : GoMap String (List UInt8)).insert "balance" [1]).insert "nonce" [2]

theorem validKeys : validateSparseKey "balance" = .ok () ∧ validateSparseKey "nonce" = .ok () := by decide

theorem paths_differ : sparsePath domainSparseState "balance" ≠ sparsePath domainSparseState "nonce" := by
  decide +kernel

/-- Both are set, the balance is deleted in a clone, and the clone is published. -/
theorem session_published : ∃ h₁ h₂ h₃ maps,
    SparseHeap.set { domain := domainSparseState, objects := [{}] } 0 "balance" [1] = .ok h₁ ∧
    h₁.set 0 "nonce" [2] = .ok h₂ ∧ (h₂.clone 0).delete h₂.objects.length "balance" = .ok h₃ ∧
    Session domainSparseState (h₃.publish h₂.objects.length) maps ∧
    maps (h₃.baseOf h₂.objects.length) = some (bothEntries.erase "balance") := by
  have hnew : newSparseTree domainSparseState = .ok { domain := domainSparseState, objects := [{}] } := by
    unfold newSparseTree
    rw [show validateDomain domainSparseState = .ok () by decide]
    rfl
  have hs := Session.new hnew
  obtain ⟨h₁, hset₁⟩ := ((hs.invariant.holds 0 ∅ rfl).calls validKeys.1 fun k hk =>
    absurd hk Finmap.notMem_empty).2.2 [1] (by decide) (by decide)
  have hs₁ := hs.set (m := ∅) rfl hset₁
  obtain ⟨h₂, hset₂⟩ := ((hs₁.invariant.holds 0 _ (if_pos rfl)).calls validKeys.2 (by
    rw [hs₁.invariant.domain]
    intro k hk hpath
    rcases Finmap.mem_insert.mp hk with rfl | hk
    · exact absurd hpath paths_differ
    · exact absurd hk Finmap.notMem_empty)).2.2 [2] (by decide) (by decide)
  have hs₂ := hs₁.set (if_pos rfl) hset₂
  have hs₃ := hs₂.clone (show afterWrite h₁ _ 0 _ 0 = some bothEntries from if_pos rfl)
  obtain ⟨h₃, hdelete⟩ := ((hs₃.invariant.holds _ bothEntries (if_pos rfl)).calls validKeys.1 (by
    rw [hs₃.invariant.domain]
    intro k hk hpath
    rcases Finmap.mem_insert.mp hk with rfl | hk
    · exact absurd hpath.symm paths_differ
    · exact (Finmap.mem_insert.mp hk).resolve_right Finmap.notMem_empty)).2.1
  exact ⟨h₁, h₂, h₃, _, hset₁, hset₂, hdelete, (hs₃.delete (if_pos rfl) hdelete).publish (if_pos rfl), if_pos rfl⟩

/-- The published tree answers like one that only ever had the nonce. -/
theorem session_history_independent_published : ∃ h₁ h₂ h₃,
    SparseHeap.set { domain := domainSparseState, objects := [{}] } 0 "balance" [1] = .ok h₁ ∧
    h₁.set 0 "nonce" [2] = .ok h₂ ∧ (h₂.clone 0).delete h₂.objects.length "balance" = .ok h₃ ∧
    ∃ fresh, buildSparseTree domainSparseState [("nonce", [2])] = .ok fresh ∧
      fresh.root 0 = (h₃.publish h₂.objects.length).root (h₃.baseOf h₂.objects.length) ∧
      ∀ key, fresh.get 0 key = (h₃.publish h₂.objects.length).get (h₃.baseOf h₂.objects.length) key := by
  obtain ⟨h₁, h₂, h₃, maps, hset₁, hset₂, hdelete, hs, live⟩ := session_published
  refine ⟨h₁, h₂, h₃, hset₁, hset₂, hdelete, ?_⟩
  obtain ⟨fresh, hbuild, hroot, -, hget⟩ := (session_history_independent hs live).1 [("nonce", [2])] fun k v => by
    rw [bothEntries, GoMap.lookup_erase_if, GoMap.lookup_insert_if, GoMap.lookup_insert_if]
    split_ifs <;> simp_all [eq_comm]
  exact ⟨fresh, hbuild, hroot, hget⟩

end Published

end ChainLab.Proof
