import ChainLab.Proof.SparseView

/-! A tree object represents a map from paths to leaves: its leaves are the map's and every node holds
the digest of the map's subtree, whatever overlays they are spread over. -/

namespace ChainLab.Proof

open ChainLab.Lib ChainLab.Lib.MerkleMap ChainLab.Types ChainLab.Crypto

variable [Primitives]

/-! ### Digests of a map -/

/-- A function on paths, read at bit strings; a string that is no path reads as empty. -/
noncomputable def leafOf (empty : Digest) (digest : Digest → Digest) (bits : List Bool) : Digest :=
  open Classical in
  if h : ∃ path : Digest, bitsUpTo path.val sparseDepth = bits then digest h.choose else empty

omit [Primitives] in
theorem path_eq_of_bits {path other : Digest}
    (h : bitsUpTo path.val sparseDepth = bitsUpTo other.val sparseDepth) : path = other := by
  apply Subtype.ext
  apply bytes_ext (by rw [path.property, other.property])
  intro j hj
  rw [path.property] at hj
  exact bitsUpTo_eq_iff.mp h j hj

omit [Primitives] in
theorem leafOf_bitsUpTo (empty : Digest) (digest : Digest → Digest) (path : Digest) :
    leafOf empty digest (bitsUpTo path.val sparseDepth) = digest path := by
  have hex : ∃ other : Digest, bitsUpTo other.val sparseDepth = bitsUpTo path.val sparseDepth := ⟨path, rfl⟩
  unfold leafOf
  rw [dif_pos hex, path_eq_of_bits hex.choose_spec]

/-- The digest at a path of a map. -/
def leafDigest (domain : String) (m : GoMap Digest SparseLeaf) (path : Digest) : Digest :=
  (m.lookup path).elim (sparseEmptyLeafHash domain) fun leaf => sparseLeafHash domain path leaf.key leaf.value

/-- The digest of a subtree of a map. -/
noncomputable def subtreeDigest (domain : String) (m : GoMap Digest SparseLeaf) : Nat → List Bool → Digest :=
  subtree (sparseBranchHash domain) (leafOf (sparseEmptyLeafHash domain) (leafDigest domain m))

theorem subtreeDigest_zero (domain : String) (m : GoMap Digest SparseLeaf) (path : Digest) :
    subtreeDigest domain m 0 (bitsUpTo path.val sparseDepth) = leafDigest domain m path :=
  leafOf_bitsUpTo _ _ path

theorem subtreeDigest_empty (domain : String) (n : Nat) (bits : List Bool) (h : bits.length + n = sparseDepth) :
    subtreeDigest domain ∅ n bits = sparseDefaultOfHeight domain n := by
  induction n generalizing bits with
  | zero =>
    change leafOf _ _ bits = _
    unfold leafOf
    split <;> rfl
  | succ n ih =>
    have hchild : ∀ bit, subtreeDigest domain ∅ n (bits ++ [bit]) = sparseDefaultOfHeight domain n :=
      fun bit => ih _ (by simp; omega)
    have hdepth : sparseDepth - (n + 1) = bits.length := by omega
    rw [sparseDefaultOfHeight, hdepth]
    change sparseBranchHash domain bits.length (subtreeDigest domain ∅ n (bits ++ [false]))
      (subtreeDigest domain ∅ n (bits ++ [true])) = _
    rw [hchild, hchild]

/-- A subtree that does not hold a path does not change with the path's leaf. -/
theorem subtreeDigest_congr {domain : String} {m m' : GoMap Digest SparseLeaf} {path q : Digest} {d : Nat}
    (hd : d ≤ sparseDepth) (hother : ∀ p ≠ path, m'.lookup p = m.lookup p)
    (hoff : bitsUpTo q.val d ≠ bitsUpTo path.val d) :
    subtreeDigest domain m' (sparseDepth - d) (bitsUpTo q.val d) =
      subtreeDigest domain m (sparseDepth - d) (bitsUpTo q.val d) := by
  apply subtree_congr
  intro rest hrest
  unfold leafOf
  split
  · next hex =>
    have hne : hex.choose ≠ path := by
      intro heq
      have hbits := hex.choose_spec
      rw [heq] at hbits
      apply hoff
      have hprefix : (bitsUpTo path.val sparseDepth).take d = bitsUpTo path.val d := by
        rw [bitsUpTo, bitsUpTo, ← List.map_take, List.take_range, Nat.min_eq_left hd]
      rw [← hprefix, hbits, List.take_left' (by simp)]
    unfold leafDigest
    rw [hother _ hne]
  · rfl

theorem subtreeDigest_succ (domain : String) (m : GoMap Digest SparseLeaf) (path : Digest) {d : Nat}
    (hd : d < sparseDepth) :
    subtreeDigest domain m (sparseDepth - d) (bitsUpTo path.val d) =
      MerkleMap.join (sparseBranchHash domain) d (bitAt path.val d)
        (subtreeDigest domain m (sparseDepth - (d + 1)) (bitsUpTo path.val (d + 1)))
        (subtreeDigest domain m (sparseDepth - (d + 1)) (bitsUpTo (flipBit path.val d) (d + 1))) := by
  have hheight : sparseDepth - d = sparseDepth - (d + 1) + 1 := by omega
  unfold subtreeDigest
  rw [hheight, subtree_succ _ _ _ _ (bitAt path.val d), length_bitsUpTo, ← bitsUpTo_succ,
    bitsUpTo_flipBit path.property (by simpa [sparseDepth] using hd)]

/-! ### Writes to one object -/

/-- Only the object `id` was written, and it kept its parent. -/
def Touches (id : Nat) (h h' : SparseHeap) : Prop :=
  h'.domain = h.domain ∧
    ∃ f : SparseTree → SparseTree, (∀ t, (f t).parent = t.parent) ∧ h'.objects = updateObject f h.objects id

namespace Touches

variable {id : Nat} {h h' h'' : SparseHeap}

omit [Primitives] in
theorem update {f : SparseTree → SparseTree} (hf : ∀ t, (f t).parent = t.parent) : Touches id h (h.update id f) :=
  ⟨rfl, f, hf, rfl⟩

omit [Primitives] in
theorem refl : Touches id h h := by
  refine ⟨rfl, fun t => t, fun _ => rfl, ?_⟩
  have hid : ∀ objects : List SparseTree, updateObject (fun t => t) objects id = objects := by
    intro objects
    induction objects with
    | nil => rfl
    | cons t older ih =>
      rw [updateObject]
      split
      · rfl
      · rw [ih]
  exact (hid h.objects).symm

omit [Primitives] in
theorem trans (a : Touches id h h') (b : Touches id h' h'') : Touches id h h'' := by
  obtain ⟨hdomain, f, hf, hobjects⟩ := a
  obtain ⟨hdomain', g, hg, hobjects'⟩ := b
  refine ⟨hdomain'.trans hdomain, g ∘ f, fun t => by simp [hf, hg], ?_⟩
  rw [hobjects', hobjects, updateObject_updateObject]

omit [Primitives] in
theorem length (a : Touches id h h') : h'.objects.length = h.objects.length := by
  obtain ⟨-, f, -, hobjects⟩ := a
  rw [hobjects, length_updateObject]

omit [Primitives] in
theorem parentsOlder (a : Touches id h h') (hp : ParentsOlder h.objects) : ParentsOlder h'.objects := by
  obtain ⟨-, f, hf, hobjects⟩ := a
  rw [hobjects]
  exact parentsOlder_updateObject hf hp

end Touches

namespace SparseTree

variable (t : SparseTree)

section Nodes

variable (key other : SparseNodeKey)

omit [Primitives] in
theorem ownNode_setNode (value : Digest) :
    ownNode other (setNode key value t) = if other = key then some (some value) else ownNode other t := by
  unfold ownNode setNode
  simp only [GoMap.lookup_insert_if, Finset.mem_erase]
  by_cases heq : other = key
  · simp only [if_pos heq]
  · simp only [heq, if_false, ne_eq, not_false_eq_true, true_and]

omit [Primitives] in
theorem ownNode_deleteNode_of_ne (hne : other ≠ key) : ownNode other (deleteNode key t) = ownNode other t := by
  have hmem : other ∈ (deleteNode key t).deletedNodes ↔ other ∈ t.deletedNodes := by
    unfold deleteNode
    simp only
    split
    · rfl
    · simp [hne]
  have hlookup : (deleteNode key t).nodes.lookup other = t.nodes.lookup other := by
    unfold deleteNode
    simp only [GoMap.lookup_erase_if, if_neg hne]
  unfold ownNode
  simp only [hmem, hlookup]

omit [Primitives] in
/-- A base tree has no parent to ask, so its erased node is gone without a tombstone. -/
theorem ownNode_deleteNode_self (ask : Nat → Option Digest) :
    (ownNode key (deleteNode key t)).getD (t.parent.bind ask) = none := by
  have hlookup : (deleteNode key t).nodes.lookup key = none := by
    unfold deleteNode
    simp only [GoMap.lookup_erase_if, if_true]
  unfold ownNode
  simp only [hlookup]
  split
  · rfl
  · next hmem =>
    have hparent : t.parent = none := by
      by_contra hsome
      exact hmem (by unfold deleteNode; simp [hsome])
    rw [hparent]
    rfl

end Nodes

section Leaves

variable (path other : Digest)

omit [Primitives] in
theorem ownLeaf_setLeaf (leaf : SparseLeaf) :
    ownLeaf other (setLeaf path leaf t) = if other = path then some (some leaf) else ownLeaf other t := by
  unfold ownLeaf setLeaf
  simp only [GoMap.lookup_insert_if, Finset.mem_erase]
  by_cases heq : other = path
  · simp only [if_pos heq]
  · simp only [heq, if_false, ne_eq, not_false_eq_true, true_and]

omit [Primitives] in
theorem ownLeaf_deleteLeaf_of_ne (hne : other ≠ path) : ownLeaf other (deleteLeaf path t) = ownLeaf other t := by
  have hmem : other ∈ (deleteLeaf path t).deletedLeaves ↔ other ∈ t.deletedLeaves := by
    unfold deleteLeaf
    simp only
    split
    · rfl
    · simp [hne]
  have hlookup : (deleteLeaf path t).leaves.lookup other = t.leaves.lookup other := by
    unfold deleteLeaf
    simp only [GoMap.lookup_erase_if, if_neg hne]
  unfold ownLeaf
  simp only [hmem, hlookup]

omit [Primitives] in
theorem ownLeaf_deleteLeaf_self (ask : Nat → Option SparseLeaf) :
    (ownLeaf path (deleteLeaf path t)).getD (t.parent.bind ask) = none := by
  have hlookup : (deleteLeaf path t).leaves.lookup path = none := by
    unfold deleteLeaf
    simp only [GoMap.lookup_erase_if, if_true]
  unfold ownLeaf
  simp only [hlookup]
  split
  · rfl
  · next hmem =>
    have hparent : t.parent = none := by
      by_contra hsome
      exact hmem (by unfold deleteLeaf; simp [hsome])
    rw [hparent]
    rfl

end Leaves

section Untouched

variable (key : SparseNodeKey) (value : Digest) (path : Digest) (leaf : SparseLeaf) (count : Int)

omit [Primitives] in
theorem parent_setNode (t : SparseTree) : (setNode key value t).parent = t.parent := rfl

omit [Primitives] in
theorem parent_deleteNode (t : SparseTree) : (deleteNode key t).parent = t.parent := rfl

omit [Primitives] in
theorem parent_setLeaf (t : SparseTree) : (setLeaf path leaf t).parent = t.parent := rfl

omit [Primitives] in
theorem parent_deleteLeaf (t : SparseTree) : (deleteLeaf path t).parent = t.parent := rfl

omit [Primitives] in
theorem parent_addEntries (t : SparseTree) : (addEntries count t).parent = t.parent := rfl

omit [Primitives] in
theorem ownLeaf_setNode (p : Digest) (t : SparseTree) : ownLeaf p (setNode key value t) = ownLeaf p t := rfl

omit [Primitives] in
theorem ownLeaf_deleteNode (p : Digest) (t : SparseTree) : ownLeaf p (deleteNode key t) = ownLeaf p t := rfl

omit [Primitives] in
theorem ownLeaf_addEntries (p : Digest) (t : SparseTree) : ownLeaf p (addEntries count t) = ownLeaf p t := rfl

omit [Primitives] in
theorem ownNode_setLeaf (k : SparseNodeKey) (t : SparseTree) : ownNode k (setLeaf path leaf t) = ownNode k t := rfl

omit [Primitives] in
theorem ownNode_deleteLeaf (k : SparseNodeKey) (t : SparseTree) : ownNode k (deleteLeaf path t) = ownNode k t := rfl

omit [Primitives] in
theorem ownNode_addEntries (k : SparseNodeKey) (t : SparseTree) : ownNode k (addEntries count t) = ownNode k t := rfl

end Untouched

end SparseTree

section Updates

variable {h : SparseHeap} {id : Nat} {f : SparseTree → SparseTree}

omit [Primitives] in
theorem node_update (hp : ParentsOlder h.objects) (hid : id < h.objects.length) (hf : ∀ t, (f t).parent = t.parent)
    {key : SparseNodeKey} (hown : ∀ t, SparseTree.ownNode key (f t) = SparseTree.ownNode key t) :
    (h.update id f).node id key = h.node id key := by
  unfold SparseHeap.node SparseHeap.update
  rw [resolve_updateObject_self hp hid hf, hown, resolve_eq hp hid]

omit [Primitives] in
theorem leaf_update (hp : ParentsOlder h.objects) (hid : id < h.objects.length) (hf : ∀ t, (f t).parent = t.parent)
    {path : Digest} (hown : ∀ t, SparseTree.ownLeaf path (f t) = SparseTree.ownLeaf path t) :
    (h.update id f).leaf id path = h.leaf id path := by
  unfold SparseHeap.leaf SparseHeap.update
  rw [resolve_updateObject_self hp hid hf, hown, resolve_eq hp hid]

omit [Primitives] in
theorem entryCount_update (hid : id < h.objects.length) :
    (h.update id f).entryCount id = (f (object h.objects id)).entryCount := by
  unfold SparseHeap.entryCount SparseHeap.update
  rw [object_updateObject hid, if_pos rfl]

omit [Primitives] in
theorem node_setNode (hp : ParentsOlder h.objects) (hid : id < h.objects.length) (key other : SparseNodeKey)
    (value : Digest) :
    (h.update id (SparseTree.setNode key value)).node id other =
      if other = key then some value else h.node id other := by
  unfold SparseHeap.node SparseHeap.update
  rw [resolve_updateObject_self (f := SparseTree.setNode key value) hp hid fun _ => rfl, resolve_eq hp hid,
    SparseTree.ownNode_setNode]
  split <;> rfl

omit [Primitives] in
theorem node_deleteNode (hp : ParentsOlder h.objects) (hid : id < h.objects.length) (key other : SparseNodeKey) :
    (h.update id (SparseTree.deleteNode key)).node id other = if other = key then none else h.node id other := by
  unfold SparseHeap.node SparseHeap.update
  rw [resolve_updateObject_self (f := SparseTree.deleteNode key) hp hid fun _ => rfl, resolve_eq hp hid]
  by_cases heq : other = key
  · rw [if_pos heq, heq, SparseTree.ownNode_deleteNode_self]
  · rw [if_neg heq, SparseTree.ownNode_deleteNode_of_ne _ _ _ heq]

omit [Primitives] in
theorem leaf_setLeaf (hp : ParentsOlder h.objects) (hid : id < h.objects.length) (path other : Digest)
    (leaf : SparseLeaf) :
    (h.update id (SparseTree.setLeaf path leaf)).leaf id other =
      if other = path then some leaf else h.leaf id other := by
  unfold SparseHeap.leaf SparseHeap.update
  rw [resolve_updateObject_self (f := SparseTree.setLeaf path leaf) hp hid fun _ => rfl, resolve_eq hp hid,
    SparseTree.ownLeaf_setLeaf]
  split <;> rfl

omit [Primitives] in
theorem leaf_deleteLeaf (hp : ParentsOlder h.objects) (hid : id < h.objects.length) (path other : Digest) :
    (h.update id (SparseTree.deleteLeaf path)).leaf id other = if other = path then none else h.leaf id other := by
  unfold SparseHeap.leaf SparseHeap.update
  rw [resolve_updateObject_self (f := SparseTree.deleteLeaf path) hp hid fun _ => rfl, resolve_eq hp hid]
  by_cases heq : other = path
  · rw [if_pos heq, heq, SparseTree.ownLeaf_deleteLeaf_self]
  · rw [if_neg heq, SparseTree.ownLeaf_deleteLeaf_of_ne _ _ _ heq]

end Updates

/-! ### Representation -/

/-- Every leaf of the map sits at the path of its key and passed the checks of `Set`. -/
def Keyed (domain : String) (m : GoMap Digest SparseLeaf) : Prop :=
  ∀ path leaf, m.lookup path = some leaf → sparsePath domain leaf.key = path ∧
    validateSparseKey leaf.key = .ok () ∧ 0 < leaf.value.length ∧ leaf.value.length ≤ maxSparseValue

/-- The object `id` of a heap represents a map from paths to leaves. -/
structure Represents (h : SparseHeap) (id : Nat) (m : GoMap Digest SparseLeaf) : Prop where
  leaf : ∀ path, h.leaf id path = m.lookup path
  node : ∀ (path : Digest) (d : Nat), d ≤ sparseDepth →
    h.nodeDigest id (sparseNodeKeyAtDepth path.val d) =
      subtreeDigest h.domain m (sparseDepth - d) (bitsUpTo path.val d)
  count : h.entryCount id = GoMap.len m
  keyed : Keyed h.domain m

/-- Nodes off a path, and those on it from depth `d` on, hold the digests of `m`. -/
private def NodesFrom (h : SparseHeap) (id : Nat) (m : GoMap Digest SparseLeaf) (path : Digest) (d : Nat) : Prop :=
  ∀ (q : Digest) (e : Nat), e ≤ sparseDepth → (bitsUpTo q.val e ≠ bitsUpTo path.val e ∨ d ≤ e) →
    h.nodeDigest id (sparseNodeKeyAtDepth q.val e) = subtreeDigest h.domain m (sparseDepth - e) (bitsUpTo q.val e)

/-- What `recalculatePath` reads and writes at one depth. -/
private theorem nodesFrom_write {h : SparseHeap} {id : Nat} {m : GoMap Digest SparseLeaf} {path : Digest} {d : Nat}
    (hp : ParentsOlder h.objects) (hid : id < h.objects.length) (hd : d < sparseDepth)
    (hnodes : NodesFrom h id m path (d + 1)) {next : Digest}
    (hnext : next = subtreeDigest h.domain m (sparseDepth - d) (bitsUpTo path.val d)) :
    NodesFrom (if next = sparseDefaults h.domain d
      then h.update id (SparseTree.deleteNode (sparseNodeKeyAtDepth path.val d))
      else h.update id (SparseTree.setNode (sparseNodeKeyAtDepth path.val d) next)) id m path d := by
  intro q e he hor
  have hkey : sparseNodeKeyAtDepth q.val e = sparseNodeKeyAtDepth path.val d ↔
      e = d ∧ bitsUpTo q.val e = bitsUpTo path.val e := by
    constructor
    · intro heq
      have hdepth : e = d := by simpa using congrArg SparseNodeKey.depth heq
      subst hdepth
      exact ⟨rfl, (sparseNodeKeyAtDepth_eq_iff q.property path.property he).mp heq⟩
    · rintro ⟨rfl, hbits⟩
      exact (sparseNodeKeyAtDepth_eq_iff q.property path.property he).mpr hbits
  have hread : ∀ h' : SparseHeap, h'.domain = h.domain →
      (∀ key, h'.node id key = if key = sparseNodeKeyAtDepth path.val d
        then (if next = sparseDefaults h.domain d then none else some next) else h.node id key) →
      h'.nodeDigest id (sparseNodeKeyAtDepth q.val e) =
        subtreeDigest h'.domain m (sparseDepth - e) (bitsUpTo q.val e) := by
    intro h' hdomain hnode
    unfold SparseHeap.nodeDigest
    rw [hnode, hdomain, depth_sparseNodeKeyAtDepth]
    by_cases hself : sparseNodeKeyAtDepth q.val e = sparseNodeKeyAtDepth path.val d
    · obtain ⟨rfl, hbits⟩ := hkey.mp hself
      rw [if_pos hself, hbits, ← hnext]
      split
      · next hdefault => exact hdefault.symm
      · rfl
    · rw [if_neg hself]
      have := hnodes q e he (by
        rcases hor with hoff | hle
        · exact .inl hoff
        · by_cases hed : e = d
          · exact .inl fun hbits => hself (hkey.mpr ⟨hed, hbits⟩)
          · exact .inr (by omega))
      simpa [SparseHeap.nodeDigest] using this
  split
  · next hdefault =>
    refine hread _ rfl fun key => ?_
    rw [node_deleteNode hp hid, if_pos hdefault]
  · next hdefault =>
    refine hread _ rfl fun key => ?_
    rw [node_setNode hp hid, if_neg hdefault]

/-- The loop restores the digests of every node on the path, and touches nodes of one object only. -/
private theorem recalculatePath_nodes {id : Nat} {m : GoMap Digest SparseLeaf} {path : Digest} (d : Nat)
    (hd : d ≤ sparseDepth) (h : SparseHeap) (current : Digest) (hp : ParentsOlder h.objects)
    (hid : id < h.objects.length) (hnodes : NodesFrom h id m path d)
    (hcurrent : current = subtreeDigest h.domain m (sparseDepth - d) (bitsUpTo path.val d)) :
    NodesFrom (SparseHeap.recalculatePath id path d h current) id m path 0 := by
  induction d generalizing h current with
  | zero => exact hnodes
  | succ d ih =>
    have hlt : d < sparseDepth := hd
    have hflip : (flipBit path.val d).length = 32 := by rw [length_flipBit, path.property]
    have hsibling : (h.node id (sparseSiblingNodeKey path.val d)).getD (sparseDefaults h.domain (d + 1)) =
        subtreeDigest h.domain m (sparseDepth - (d + 1)) (bitsUpTo (flipBit path.val d) (d + 1)) := by
      have hoff : bitsUpTo (flipBit path.val d) (d + 1) ≠ bitsUpTo path.val (d + 1) := by
        rw [bitsUpTo_flipBit path.property hlt, bitsUpTo_succ]
        intro heq
        have := List.append_cancel_left heq
        simp at this
      have := hnodes ⟨flipBit path.val d, hflip⟩ (d + 1) hd (.inl hoff)
      unfold SparseHeap.nodeDigest at this
      rwa [depth_sparseNodeKeyAtDepth] at this
    have hnext : (if sparsePathBit path.val d = 0 then sparseBranchHash h.domain d current
          ((h.node id (sparseSiblingNodeKey path.val d)).getD (sparseDefaults h.domain (d + 1)))
        else sparseBranchHash h.domain d
          ((h.node id (sparseSiblingNodeKey path.val d)).getD (sparseDefaults h.domain (d + 1))) current) =
        subtreeDigest h.domain m (sparseDepth - d) (bitsUpTo path.val d) := by
      rw [subtreeDigest_succ h.domain m path hlt, hsibling, ← hcurrent]
      unfold MerkleMap.join
      by_cases hbit : bitAt path.val d = false
      · rw [if_pos ((sparsePathBit_eq_zero _ _).mpr hbit), hbit, if_neg Bool.false_ne_true]
      · rw [if_neg (mt (sparsePathBit_eq_zero _ _).mp hbit), if_pos (by simpa using hbit)]
    rw [SparseHeap.recalculatePath]
    simp only [hnext]
    have hwritten := nodesFrom_write hp hid hlt hnodes rfl
    split at hwritten
    · next hdefault =>
      rw [if_pos hdefault]
      exact ih (by omega) _ _ (parentsOlder_updateObject (fun _ => rfl) hp)
        (by simpa [SparseHeap.update] using hid) hwritten rfl
    · next hdefault =>
      rw [if_neg hdefault]
      exact ih (by omega) _ _ (parentsOlder_updateObject (fun _ => rfl) hp)
        (by simpa [SparseHeap.update] using hid) hwritten rfl

/-- One round of the loop writes or drops one node of one object. -/
theorem recalculatePath_succ (id : Nat) (path : Digest) (d : Nat) (h : SparseHeap) (current : Digest) :
    ∃ next f, (f = SparseTree.deleteNode (sparseNodeKeyAtDepth path.val d) ∨
        f = SparseTree.setNode (sparseNodeKeyAtDepth path.val d) next) ∧
      SparseHeap.recalculatePath id path (d + 1) h current =
        SparseHeap.recalculatePath id path d (h.update id f) next := by
  have hboth : ∀ (next : Digest) (written : SparseHeap),
      written = (if next = sparseDefaults h.domain d
        then h.update id (SparseTree.deleteNode (sparseNodeKeyAtDepth path.val d))
        else h.update id (SparseTree.setNode (sparseNodeKeyAtDepth path.val d) next)) →
      ∃ f, (f = SparseTree.deleteNode (sparseNodeKeyAtDepth path.val d) ∨
        f = SparseTree.setNode (sparseNodeKeyAtDepth path.val d) next) ∧ written = h.update id f := by
    rintro next written rfl
    split
    · exact ⟨_, .inl rfl, rfl⟩
    · exact ⟨_, .inr rfl, rfl⟩
  obtain ⟨f, hf, hwritten⟩ := hboth _ _ rfl
  exact ⟨_, f, hf, by rw [SparseHeap.recalculatePath, ← hwritten]⟩

/-- The loop writes nodes of one object and nothing else. -/
private theorem recalculatePath_frame {id : Nat} (path : Digest) (d : Nat) (h : SparseHeap) (current : Digest)
    (hp : ParentsOlder h.objects) (hid : id < h.objects.length) :
    Touches id h (SparseHeap.recalculatePath id path d h current) ∧
      (∀ p, (SparseHeap.recalculatePath id path d h current).leaf id p = h.leaf id p) ∧
      (SparseHeap.recalculatePath id path d h current).entryCount id = h.entryCount id := by
  induction d generalizing h current with
  | zero => exact ⟨Touches.refl, fun _ => rfl, rfl⟩
  | succ d ih =>
    have hstep : ∀ f : SparseTree → SparseTree, (∀ t, (f t).parent = t.parent) →
        (∀ p t, SparseTree.ownLeaf p (f t) = SparseTree.ownLeaf p t) →
        (∀ t, (f t).entryCount = t.entryCount) → ∀ current,
        Touches id h (SparseHeap.recalculatePath id path d (h.update id f) current) ∧
          (∀ p, (SparseHeap.recalculatePath id path d (h.update id f) current).leaf id p = h.leaf id p) ∧
          (SparseHeap.recalculatePath id path d (h.update id f) current).entryCount id = h.entryCount id := by
      intro f hf hleaf hcount current
      obtain ⟨htouch, hleaves, hentries⟩ := ih (h.update id f) current (parentsOlder_updateObject hf hp)
        (by simpa [SparseHeap.update] using hid)
      refine ⟨(Touches.update hf).trans htouch, fun p => ?_, ?_⟩
      · rw [hleaves p, leaf_update hp hid hf (hleaf p)]
      · rw [hentries, entryCount_update hid, hcount]
        rfl
    obtain ⟨next, f, hf, heq⟩ := recalculatePath_succ id path d h current
    rw [heq]
    obtain rfl | rfl := hf
    · exact hstep (SparseTree.deleteNode _) (fun _ => rfl) (fun _ _ => rfl) (fun _ => rfl) _
    · exact hstep (SparseTree.setNode _ _) (fun _ => rfl) (fun _ _ => rfl) (fun _ => rfl) _

theorem represents_new (domain : String) : Represents { domain, objects := [{}] } 0 ∅ where
  leaf _ := rfl
  node path d hd := by
    rw [subtreeDigest_empty _ _ _ (by simp; omega)]
    unfold SparseHeap.nodeDigest
    rw [depth_sparseNodeKeyAtDepth]
    rfl
  count := rfl
  keyed path leaf h := by simp at h

section Operations

variable {h h' : SparseHeap} {id : Nat} {m : GoMap Digest SparseLeaf} {key : String} {value : List UInt8}

/-- From the leaf upwards: the nodes of `m'` are restored when only the leaf at `path` differs. -/
private theorem nodesFrom_leaf {m' : GoMap Digest SparseLeaf} {path : Digest} (hr : Represents h id m)
    (hdomain : h'.domain = h.domain) (hother : ∀ p ≠ path, m'.lookup p = m.lookup p)
    (hself : h'.nodeDigest id (sparseNodeKeyAtDepth path.val sparseDepth) = leafDigest h.domain m' path)
    (hnode : ∀ k ≠ sparseNodeKeyAtDepth path.val sparseDepth, h'.node id k = h.node id k) :
    NodesFrom h' id m' path sparseDepth := by
  intro q e he hor
  by_cases hkey : sparseNodeKeyAtDepth q.val e = sparseNodeKeyAtDepth path.val sparseDepth
  · have hdepth : e = sparseDepth := by simpa using congrArg SparseNodeKey.depth hkey
    subst hdepth
    have hq : q = path :=
      path_eq_of_bits ((sparseNodeKeyAtDepth_eq_iff q.property path.property (Nat.le_refl _)).mp hkey)
    rw [hq, hself, Nat.sub_self, hdomain, subtreeDigest_zero]
  · have hoff : bitsUpTo q.val e ≠ bitsUpTo path.val e := by
      rcases hor with hoff | hle
      · exact hoff
      · have heq : e = sparseDepth := by omega
        subst heq
        exact mt (sparseNodeKeyAtDepth_eq_iff q.property path.property (Nat.le_refl _)).mpr hkey
    have hold := hr.node q e he
    unfold SparseHeap.nodeDigest at hold ⊢
    rw [hnode _ hkey, hdomain, hold, subtreeDigest_congr he hother hoff]

private theorem represents_of_nodesFrom (path current : Digest) (hp : ParentsOlder h.objects)
    (hid : id < h.objects.length) (hnodes : NodesFrom h id m path sparseDepth)
    (hcurrent : current = leafDigest h.domain m path) (hleaf : ∀ p, h.leaf id p = m.lookup p)
    (hcount : h.entryCount id = GoMap.len m) (hkeyed : Keyed h.domain m) :
    Touches id h (SparseHeap.recalculatePath id path sparseDepth h current) ∧
      Represents (SparseHeap.recalculatePath id path sparseDepth h current) id m := by
  obtain ⟨htouch, hleaves, hentries⟩ := recalculatePath_frame path sparseDepth h current hp hid
  have hdone := recalculatePath_nodes sparseDepth (Nat.le_refl _) h current hp hid hnodes
    (by rw [Nat.sub_self, subtreeDigest_zero, hcurrent])
  refine ⟨htouch, fun p => by rw [hleaves, hleaf], fun q d hd => hdone q d hd (.inr (Nat.zero_le d)), ?_, ?_⟩
  · rw [hentries, hcount]
  · rw [htouch.1]; exact hkeyed

theorem set_ok_iff : (∃ h', h.set id key value = .ok h') ↔ validateSparseKey key = .ok () ∧
    (0 < value.length ∧ value.length ≤ maxSparseValue) ∧
    ∀ leaf ∈ h.leaf id (sparsePath h.domain key), leaf.key = key := by
  have hbranch : ∀ h'' : SparseHeap, ∃ h' : SparseHeap,
      (if (h.leaf id (sparsePath h.domain key)).map SparseLeaf.value = some value then .ok h else .ok h'' :
        Result SparseHeap) = .ok h' := by
    intro h''
    split
    · exact ⟨h, rfl⟩
    · exact ⟨h'', rfl⟩
  simp only [SparseHeap.set, bind_ok, refuseIf_ok, exists_const, pure_eq_ok]
  constructor
  · rintro ⟨h', _, hkey, hvalue, hleaf, -⟩
    push Not at hvalue hleaf
    exact ⟨hkey, ⟨by omega, by omega⟩, hleaf⟩
  · rintro ⟨hkey, hvalue, hleaf⟩
    obtain ⟨h', hh'⟩ := hbranch _
    exact ⟨h', (), hkey, by push Not; omega, by push Not; exact hleaf, hh'⟩

/-- `Set` changes the leaf of one path of one object. -/
theorem set_spec (hp : ParentsOlder h.objects) (hid : id < h.objects.length) (hr : Represents h id m)
    (hset : h.set id key value = .ok h') :
    Touches id h h' ∧ Represents h' id (m.insert (sparsePath h.domain key) { key, value }) := by
  obtain ⟨hkey, hvalue, hcollision⟩ := set_ok_iff.mp ⟨h', hset⟩
  simp only [SparseHeap.set, bind_ok, refuseIf_ok, exists_const, pure_eq_ok] at hset
  obtain ⟨_, -, -, -, hset⟩ := hset
  set path := sparsePath h.domain key with hpath
  have hkeyed : Keyed h.domain (m.insert path { key, value }) := by
    intro p leaf hlookup
    rw [GoMap.lookup_insert_if] at hlookup
    split at hlookup
    · next hp' =>
      obtain rfl := Option.some.inj hlookup
      exact ⟨by rw [hp'], hkey, hvalue⟩
    · exact hr.keyed p leaf hlookup
  split at hset
  · next hsame =>
    obtain rfl := Except.ok.inj hset
    have hinsert : m.insert path { key, value } = m := by
      apply Finmap.ext_lookup
      intro p
      rw [GoMap.lookup_insert_if]
      split
      · next hp' =>
        rw [hp', ← hr.leaf path]
        cases hleaf : h.leaf id path with
        | none => rw [hleaf] at hsame; cases hsame
        | some leaf =>
          rw [hleaf] at hsame hcollision
          have hk := hcollision leaf rfl
          have hv : leaf.value = value := by simpa using hsame
          cases leaf
          simp_all
      · rfl
    exact ⟨Touches.refl, by rw [hinsert]; exact hr⟩
  · have hcounted : ∀ counted : SparseHeap, counted =
        (if h.leaf id path = none then h.update id (SparseTree.addEntries 1) else h) →
        Touches id h counted ∧ (∀ p, counted.leaf id p = h.leaf id p) ∧ (∀ k, counted.node id k = h.node id k) ∧
          counted.entryCount id = GoMap.len (m.insert path { key, value }) := by
      rintro counted rfl
      have hmem : path ∈ m ↔ h.leaf id path ≠ none := by
        rw [hr.leaf path, ne_eq, Finmap.lookup_eq_none, not_not]
      split
      · next hnone =>
        refine ⟨Touches.update (SparseTree.parent_addEntries 1),
          fun p => leaf_update hp hid (SparseTree.parent_addEntries 1) (SparseTree.ownLeaf_addEntries 1 p),
          fun k => node_update hp hid (SparseTree.parent_addEntries 1) (SparseTree.ownNode_addEntries 1 k), ?_⟩
        have hcount := hr.count
        rw [entryCount_update hid, GoMap.len_insert, if_neg (by rw [hmem]; simp [hnone])]
        unfold SparseHeap.entryCount at hcount
        simp only [SparseTree.addEntries, hcount]
        push_cast
        rfl
      · next hsome =>
        refine ⟨Touches.refl, fun _ => rfl, fun _ => rfl, ?_⟩
        rw [hr.count, GoMap.len_insert, if_pos (by rw [hmem]; exact hsome)]
    obtain ⟨htouch, hleaf, hnode, hcount⟩ := hcounted _ rfl
    generalize (if h.leaf id path = none then h.update id (SparseTree.addEntries 1) else h) = counted at *
    obtain ⟨hdomain, f, hf, hobjects⟩ := htouch
    have hp1 : ParentsOlder counted.objects := by rw [hobjects]; exact parentsOlder_updateObject hf hp
    have hid1 : id < counted.objects.length := by rw [hobjects, length_updateObject]; exact hid
    have hp2 : ParentsOlder (counted.update id (SparseTree.setLeaf path { key, value })).objects :=
      parentsOlder_updateObject (fun _ => rfl) hp1
    have hid2 : id < (counted.update id (SparseTree.setLeaf path { key, value })).objects.length := by
      simpa [SparseHeap.update] using hid1
    obtain rfl := Except.ok.inj hset
    have hdone := represents_of_nodesFrom (h := (counted.update id (SparseTree.setLeaf path { key, value })).update id
        (SparseTree.setNode (sparseNodeKeyAtDepth path.val sparseDepth) (sparseLeafHash h.domain path key value)))
      (m := m.insert path { key, value }) path (sparseLeafHash h.domain path key value)
      (parentsOlder_updateObject (fun _ => rfl) hp2) (by simpa [SparseHeap.update] using hid1)
      (nodesFrom_leaf hr hdomain (fun p hne => by rw [GoMap.lookup_insert_if, if_neg hne]) ?_ ?_) ?_ ?_ ?_ ?_
    · refine ⟨?_, hdone.2⟩
      have hbefore : Touches id h counted := ⟨hdomain, f, hf, hobjects⟩
      exact ((hbefore.trans (Touches.update (SparseTree.parent_setLeaf _ _))).trans
        (Touches.update (SparseTree.parent_setNode _ _))).trans hdone.1
    · unfold SparseHeap.nodeDigest leafDigest
      rw [node_setNode hp2 hid2, if_pos rfl, GoMap.lookup_insert_if, if_pos rfl]
      rfl
    · intro k hne
      rw [node_setNode hp2 hid2, if_neg hne, node_update hp1 hid1 (SparseTree.parent_setLeaf _ _)
        (SparseTree.ownNode_setLeaf _ _ k), hnode]
    · unfold leafDigest
      rw [GoMap.lookup_insert_if, if_pos rfl]
      change _ = sparseLeafHash counted.domain path key value
      rw [hdomain]
    · intro p
      rw [leaf_update hp2 hid2 (SparseTree.parent_setNode _ _) (SparseTree.ownLeaf_setNode _ _ p),
        leaf_setLeaf hp1 hid1, GoMap.lookup_insert_if, hleaf, hr.leaf]
    · rw [entryCount_update hid2]
      change (counted.update id _).entryCount id = _
      rw [entryCount_update hid1]
      exact hcount
    · change Keyed counted.domain _
      rw [hdomain]
      exact hkeyed

theorem delete_ok_iff : (∃ h', h.delete id key = .ok h') ↔ validateSparseKey key = .ok () ∧
    ∀ leaf ∈ h.leaf id (sparsePath h.domain key), leaf.key = key := by
  simp only [SparseHeap.delete, bind_ok]
  constructor
  · rintro ⟨h', _, hkey, hrest⟩
    refine ⟨hkey, ?_⟩
    split at hrest
    · next hnone => rw [hnone]; simp
    · simp only [bind_ok, refuseIf_ok, exists_const] at hrest
      have := hrest.1
      push Not at this
      exact this
  · rintro ⟨hkey, hleaf⟩
    by_cases hnone : h.leaf id (sparsePath h.domain key) = none
    · exact ⟨h, (), hkey, by rw [if_pos hnone]; rfl⟩
    · have hno : ¬∃ leaf ∈ h.leaf id (sparsePath h.domain key), leaf.key ≠ key := by push Not; exact hleaf
      simp only [if_neg hnone, bind_ok, refuseIf_ok, exists_const, pure_eq_ok, Except.ok.injEq]
      exact ⟨_, (), hkey, hno, rfl⟩

/-- `Delete` drops the leaf of one path of one object. -/
theorem delete_spec (hp : ParentsOlder h.objects) (hid : id < h.objects.length) (hr : Represents h id m)
    (hdelete : h.delete id key = .ok h') :
    Touches id h h' ∧ Represents h' id (m.erase (sparsePath h.domain key)) := by
  simp only [SparseHeap.delete, bind_ok] at hdelete
  obtain ⟨_, -, hdelete⟩ := hdelete
  set path := sparsePath h.domain key with hpath
  have hkeyed : Keyed h.domain (m.erase path) := by
    intro p leaf hlookup
    rw [GoMap.lookup_erase_if] at hlookup
    split at hlookup
    · cases hlookup
    · exact hr.keyed p leaf hlookup
  split at hdelete
  · next hnone =>
    obtain rfl : h = h' := by simpa using hdelete
    have herase : m.erase path = m := by
      apply Finmap.ext_lookup
      intro p
      rw [GoMap.lookup_erase_if]
      split
      · next hp' => rw [hp', ← hr.leaf path, hnone]
      · rfl
    exact ⟨Touches.refl, by rw [herase]; exact hr⟩
  · next hsome =>
    simp only [bind_ok, refuseIf_ok, exists_const, pure_eq_ok, Except.ok.injEq] at hdelete
    obtain ⟨-, rfl⟩ := hdelete
    have hmem : path ∈ m := by
      rw [hr.leaf path, ← ne_eq, ne_eq, Finmap.lookup_eq_none, not_not] at hsome
      exact hsome
    have hp1 : ParentsOlder (h.update id (SparseTree.deleteLeaf path)).objects :=
      parentsOlder_updateObject (fun _ => rfl) hp
    have hid1 : id < (h.update id (SparseTree.deleteLeaf path)).objects.length := by
      simpa [SparseHeap.update] using hid
    have hp2 : ParentsOlder ((h.update id (SparseTree.deleteLeaf path)).update id
        (SparseTree.addEntries (-1))).objects := parentsOlder_updateObject (fun _ => rfl) hp1
    have hid2 : id < ((h.update id (SparseTree.deleteLeaf path)).update id
        (SparseTree.addEntries (-1))).objects.length := by
      simpa [SparseHeap.update] using hid
    have hdone := represents_of_nodesFrom (h := ((h.update id (SparseTree.deleteLeaf path)).update id
        (SparseTree.addEntries (-1))).update id
        (SparseTree.deleteNode (sparseNodeKeyAtDepth path.val sparseDepth)))
      (m := m.erase path) path (sparseDefaults h.domain sparseDepth)
      (parentsOlder_updateObject (fun _ => rfl) hp2) (by simpa [SparseHeap.update] using hid)
      (nodesFrom_leaf hr rfl (fun p hne => by rw [GoMap.lookup_erase_if, if_neg hne]) ?_ ?_) ?_ ?_ ?_ hkeyed
    · refine ⟨?_, hdone.2⟩
      exact (((Touches.update (SparseTree.parent_deleteLeaf path)).trans
        (Touches.update (SparseTree.parent_addEntries (-1)))).trans
        (Touches.update (SparseTree.parent_deleteNode _))).trans hdone.1
    · unfold SparseHeap.nodeDigest leafDigest
      rw [node_deleteNode hp2 hid2, if_pos rfl, GoMap.lookup_erase_if, if_pos rfl, depth_sparseNodeKeyAtDepth]
      rfl
    · intro k hne
      rw [node_deleteNode hp2 hid2, if_neg hne,
        node_update hp1 hid1 (SparseTree.parent_addEntries (-1)) (SparseTree.ownNode_addEntries (-1) k),
        node_update hp hid (SparseTree.parent_deleteLeaf path) (SparseTree.ownNode_deleteLeaf path k)]
    · unfold leafDigest
      rw [GoMap.lookup_erase_if, if_pos rfl]
      rfl
    · intro p
      rw [leaf_update hp2 hid2 (SparseTree.parent_deleteNode _) (SparseTree.ownLeaf_deleteNode _ p),
        leaf_update hp1 hid1 (SparseTree.parent_addEntries (-1)) (SparseTree.ownLeaf_addEntries (-1) p),
        leaf_deleteLeaf hp hid, GoMap.lookup_erase_if, hr.leaf]
    · have hcount := hr.count
      have hlen := GoMap.len_erase_of_mem hmem
      rw [entryCount_update hid2]
      change ((h.update id _).update id (SparseTree.addEntries (-1))).entryCount id = _
      rw [entryCount_update hid1]
      change (h.update id (SparseTree.deleteLeaf path)).entryCount id + -1 = _
      rw [entryCount_update hid]
      change h.entryCount id + -1 = _
      omega

end Operations

end ChainLab.Proof
