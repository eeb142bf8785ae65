import ChainLab.Node.Steps
import ChainLab.Node.Tree

/-! The canonical chain and the finality lock: the canonical chain is a path of the tree of known blocks, the lock is
on it, the lock is the highest certified block, and no known block above the lock is higher than the head. -/

namespace ChainLab.Node

open ChainLab.Lib ChainLab.Types ChainLab.Crypto ChainLab.State ChainLab.Core ChainLab.Consensus

section Chains

variable [Primitives]

/-- What the known blocks, the canonical chain and the lock of a node have to do with one another. -/
structure Chained (headers : List BlockHeader) (known : GoMap String Block) (blocks : List Block) (lock : FinalityLock) :
    Prop where
  tree : Tree headers known
  path : BlockPath known blocks
  locked : ∃ block, blocks[lock.height.toNat]? = some block ∧ block.hash = lock.blockHash
  certified : ∀ blockHash block, known.lookup blockHash = some block → block.finalityCertificate ≠ none →
    block.header.height.toNat ≤ lock.height.toNat
  lockCertified : lock.height ≠ 0 → ∀ block, known.lookup lock.blockHash = some block →
    block.finalityCertificate ≠ none
  highest : ∀ blockHash, DescendsFrom known blockHash lock.blockHash →
    heightOf known blockHash ≤ (blocks.getLastD default).header.height.toNat

/-- How a step moves the lock: to a descendant among the blocks that are known then. -/
structure Advances (known : GoMap String Block) (lock : FinalityLock) (known' : GoMap String Block)
    (lock' : FinalityLock) : Prop where
  height : lock.height.toNat ≤ lock'.height.toNat
  descends : DescendsFrom known' lock'.blockHash lock.blockHash
  extends' : Extends known known'

variable {headers more : List BlockHeader} {known known' : GoMap String Block} {blocks : List Block}
  {lock lock' : FinalityLock} {block parent : Block}

namespace Chained

theorem mono (h : Chained headers known blocks lock) (hsubset : headers ⊆ more) : Chained more known blocks lock :=
  ⟨h.tree.mono hsubset, h.path, h.locked, h.certified, h.lockCertified, h.highest⟩

theorem lockKnown (h : Chained headers known blocks lock) : LockKnown known lock := by
  obtain ⟨block, hblock, hhash⟩ := h.locked
  have hlookup := h.path.known _ _ hblock
  rw [hhash] at hlookup
  exact ⟨mem_of_lookup hlookup, (heightOf_of_lookup hlookup).trans (h.path.height _ _ hblock)⟩

theorem stays (h : Chained headers known blocks lock) : Advances known lock known lock :=
  ⟨le_rfl, ⟨h.lockKnown.1, .refl⟩, .refl known⟩

/-- A canonical block at or above the lock descends from it. -/
theorem descends_lock (h : Chained headers known blocks lock) {i : Nat} (hi : blocks[i]? = some block)
    (hle : lock.height.toNat ≤ i) : DescendsFrom known block.hash lock.blockHash := by
  obtain ⟨locked, hlocked, hhash⟩ := h.locked
  rw [← hhash]
  exact h.path.descends hlocked (i - lock.height.toNat) (by rwa [Nat.add_sub_cancel' hle])

theorem head_descends (h : Chained headers known blocks lock) :
    DescendsFrom known (blocks.getLastD default).hash lock.blockHash := by
  obtain ⟨locked, hlocked, -⟩ := id h.locked
  have hlt := (List.getElem?_eq_some_iff.mp hlocked).1
  exact h.descends_lock (getElem?_last h.path.nonempty) (by omega)

end Chained

omit [Primitives] in
theorem LockKnown.extends' (h : LockKnown known lock) (hextends : Extends known known') : LockKnown known' lock :=
  ⟨hextends.mem h.1, (hextends.heightOf h.1).trans h.2⟩

/-- A path to a highest descendant of the lock can become the canonical chain. -/
theorem chained_of_path {chain : List Block} (htree : Tree headers known) (hlock : LockKnown known lock)
    (hpath : BlockPath known chain) (hdescends : DescendsFrom known (chain.getLastD default).hash lock.blockHash)
    (hcertified : ∀ blockHash block, known.lookup blockHash = some block → block.finalityCertificate ≠ none →
      block.header.height.toNat ≤ lock.height.toNat)
    (hlockCertified : lock.height ≠ 0 → ∀ block, known.lookup lock.blockHash = some block →
      block.finalityCertificate ≠ none)
    (hhighest : ∀ blockHash, DescendsFrom known blockHash lock.blockHash →
      heightOf known blockHash ≤ (chain.getLastD default).header.height.toNat) :
    Chained headers known chain lock := by
  refine ⟨htree, hpath, ?_, hcertified, hlockCertified, hhighest⟩
  have hcontains := hpath.contains htree.links hdescends
  rwa [hlock.2] at hcontains

/-! ### A new head -/

/-- What validation says about the place of a block. -/
theorem validateBlock_links {p : POA} (h : p.validateBlock parent block = .ok ()) :
    block.header.parentHash = parent.hash ∧ parent.header.height.toNat + 1 = block.header.height.toNat := by
  have hschema : p.schemaErr = none := by
    rw [POA.validateBlock] at h
    cases hschema : p.schemaErr with
    | none => rfl
    | some err =>
      rw [hschema] at h
      cases h
  simp only [POA.validateBlock, hschema, bind_ok, refuseIf_ok, exists_const, not_not, require_ok] at h
  obtain ⟨-, -, -, hheight, -, -, expected, hexpected, -, hparent, -⟩ := h
  refine ⟨hparent, ?_⟩
  have hne : block.header.height ≠ 0 := by
    intro hzero
    rw [POA.expectedProposer, if_pos (.inl hzero)] at hexpected
    cases hexpected
  have hone : (1 : UInt64).toNat = 1 := rfl
  have hbound := parent.header.height.toNat_lt
  have hpositive : block.header.height.toNat ≠ 0 := fun hzero => hne (UInt64.toNat_inj.mp hzero)
  have hsum := congrArg UInt64.toNat hheight
  rw [UInt64.toNat_add, hone] at hsum
  omega

/-- No block right above the head is known, because it would be a descendant of the lock above the head. -/
theorem Chained.fresh (h : Chained headers known blocks lock) (hfree : NoCollision headers)
    (hpresented : block.header ∈ headers) (hparent : block.header.parentHash = (blocks.getLastD default).hash)
    (hheight : (blocks.getLastD default).header.height.toNat + 1 = block.header.height.toNat) : block.hash ∉ known := by
  intro hmem
  obtain ⟨other, hother⟩ := Finmap.mem_iff.mp hmem
  have hheader := h.tree.header_eq hfree hpresented hother
  have hhead := mem_of_lookup h.path.head_known
  have hlink : ParentOf known block.hash (blocks.getLastD default).hash :=
    ⟨other, hother, by rw [hheader, hparent], hhead⟩
  have hdescends : DescendsFrom known block.hash lock.blockHash := ⟨hmem, h.head_descends.2.head hlink⟩
  have hle := h.highest _ hdescends
  rw [heightOf_of_lookup hother, hheader] at hle
  omega

omit [Primitives] in
theorem getElem?_concat {i : Nat} {found : Block} (h : (blocks ++ [block])[i]? = some found) :
    i < blocks.length ∧ blocks[i]? = some found ∨ i = blocks.length ∧ found = block := by
  rcases Nat.lt_trichotomy i blocks.length with hlt | rfl | hgt
  · exact .inl ⟨hlt, (List.getElem?_append_left hlt).symm.trans h⟩
  · rw [List.getElem?_concat_length] at h
    exact .inr ⟨rfl, (Option.some.inj h).symm⟩
  · rw [List.getElem?_eq_none (by simpa using hgt)] at h
    cases h

/-- A block on top of the head becomes the head. -/
theorem Chained.publish (h : Chained headers known blocks lock) (hfree : NoCollision headers)
    (hpresented : block.header ∈ headers) (hparent : block.header.parentHash = (blocks.getLastD default).hash)
    (hheight : (blocks.getLastD default).header.height.toNat + 1 = block.header.height.toNat)
    (huncertified : block.finalityCertificate = none) :
    Chained headers (known.insert block.hash block) (blocks ++ [block]) lock ∧
      Advances known lock (known.insert block.hash block) lock := by
  have hfresh := h.fresh hfree hpresented hparent hheight
  have hlookup : known.lookup block.hash = none := Finmap.lookup_eq_none.mpr hfresh
  obtain ⟨htree, hextends⟩ := h.tree.insert hfree hpresented (hparent ▸ h.path.head_known) hheight
  have hlast : ((blocks ++ [block]).getLastD default) = block := List.getLastD_concat
  have hlength := h.path.head_height
  have hold : ∀ other found, known.lookup other = some found →
      (known.insert block.hash block).lookup other = some found := by
    intro other found hfound
    rw [GoMap.lookup_insert_if, if_neg, hfound]
    rintro rfl
    rw [hlookup] at hfound
    cases hfound
  have hcases : ∀ other found, (known.insert block.hash block).lookup other = some found →
      other = block.hash ∧ found = block ∨ known.lookup other = some found := by
    intro other found hfound
    rw [GoMap.lookup_insert_if] at hfound
    split at hfound
    · next heq => exact .inl ⟨heq, (Option.some.inj hfound).symm⟩
    · exact .inr hfound
  refine ⟨⟨htree, ⟨?_, ?_, ?_, by simp⟩, ?_, ?_, ?_, ?_⟩, le_rfl, hextends.descends ⟨h.lockKnown.1, .refl⟩, hextends⟩
  · intro i found hi
    rcases getElem?_concat hi with ⟨-, hi⟩ | ⟨-, rfl⟩
    · exact hold _ _ (h.path.known _ _ hi)
    · rw [GoMap.lookup_insert_if, if_pos rfl]
  · intro i found hi
    rcases getElem?_concat hi with ⟨-, hi⟩ | ⟨rfl, rfl⟩
    · exact h.path.height _ _ hi
    · omega
  · intro i first second hfirst hsecond
    rcases getElem?_concat hsecond with ⟨hlt, hsecond⟩ | ⟨hlen, rfl⟩
    · rw [List.getElem?_append_left (by omega)] at hfirst
      exact h.path.linked _ _ _ hfirst hsecond
    · rw [List.getElem?_append_left (by omega), show i = blocks.length - 1 by omega,
        getElem?_last h.path.nonempty] at hfirst
      exact hparent.trans (congrArg Block.hash (Option.some.inj hfirst))
  · obtain ⟨locked, hlocked, hhash⟩ := h.locked
    refine ⟨locked, ?_, hhash⟩
    rw [List.getElem?_append_left (List.getElem?_eq_some_iff.mp hlocked).1, hlocked]
  · intro other found hfound hcertificate
    rcases hcases other found hfound with ⟨-, rfl⟩ | hfound
    · exact absurd huncertified hcertificate
    · exact h.certified other found hfound hcertificate
  · intro hpositive found hfound
    rcases hcases _ found hfound with ⟨hhash, -⟩ | hfound
    · exact absurd (hhash ▸ h.lockKnown.1) hfresh
    · exact h.lockCertified hpositive found hfound
  · intro other hdescends
    rw [hlast]
    by_cases hmem : other ∈ known
    · have hle := h.highest other (hextends.reflects h.tree htree.keyed hmem hdescends)
      rw [hextends.heightOf hmem]
      omega
    · obtain ⟨found, hfound⟩ := Finmap.mem_iff.mp hdescends.1
      rcases hcases _ _ hfound with ⟨-, rfl⟩ | hknown
      · rw [heightOf_of_lookup hfound]
      · exact absurd (mem_of_lookup hknown) hmem

/-! ### A certificate for a canonical block -/

/-- The lock after the certificate of a block. -/
def lockAfter (lock : FinalityLock) (block : Block) : FinalityLock :=
  if block.header.height > lock.height then ⟨block.header.height, block.hash⟩ else lock

theorem Tree.of_extends (htree : Tree headers known) (hextends : Extends known known')
    (hback : Extends known' known) : Tree headers known' := by
  refine ⟨?_, ?_, ?_, ?_⟩
  · intro other found hfound
    obtain ⟨old, hold, hheader⟩ := hback _ _ hfound
    exact (hash_congr hheader).symm.trans (htree.keyed _ _ hold)
  · intro other found hfound
    obtain ⟨old, hold, hheader⟩ := hback _ _ hfound
    exact hheader ▸ htree.presented _ _ hold
  · intro other found hfound hzero
    obtain ⟨old, hold, hheader⟩ := hback _ _ hfound
    rw [← hheader] at hzero ⊢
    exact htree.root _ _ hold hzero
  · intro other found hfound hzero
    obtain ⟨old, hold, hheader⟩ := hback _ _ hfound
    rw [← hheader] at hzero ⊢
    obtain ⟨parent, hparent, hheight⟩ := htree.parents _ _ hold hzero
    obtain ⟨parent', hparent', hheader'⟩ := hextends _ _ hparent
    exact ⟨parent', hparent', by rw [hheader', hheight]⟩

/-- A known block that is replaced by one with its header. -/
theorem extends_replace {old : Block} (hlookup : known.lookup block.hash = some old) (hheader : block.header = old.header) :
    Extends known (known.insert block.hash block) ∧ Extends (known.insert block.hash block) known := by
  constructor
  · intro other found hfound
    rw [GoMap.lookup_insert_if]
    split
    · next heq =>
      rw [heq, hlookup] at hfound
      exact ⟨block, rfl, hheader.trans (congrArg Block.header (Option.some.inj hfound))⟩
    · exact ⟨found, hfound, rfl⟩
  · intro other found hfound
    rw [GoMap.lookup_insert_if] at hfound
    split at hfound
    · next heq =>
      rw [heq]
      exact ⟨old, hlookup, hheader.symm.trans (congrArg Block.header (Option.some.inj hfound))⟩
    · exact ⟨found, hfound, rfl⟩

omit [Primitives] in
/-- Replacing a block by one with its header changes no header of the list. -/
theorem headers_set {i : Nat} {old : Block} (hi : blocks[i]? = some old) (hheader : block.header = old.header) (j : Nat) :
    ((blocks.set i block)[j]?).map Block.header = (blocks[j]?).map Block.header := by
  have hlt := (List.getElem?_eq_some_iff.mp hi).1
  rw [List.getElem?_set]
  split
  · next hji =>
    rw [← hji, hi]
    exact congrArg some hheader
  · rfl

omit [Primitives] in
theorem header_getLastD_set {i : Nat} {old : Block} (hi : blocks[i]? = some old) (hheader : block.header = old.header) :
    ((blocks.set i block).getLastD default).header = (blocks.getLastD default).header := by
  have hne : blocks ≠ [] := by
    rintro rfl
    cases hi
  have hset : blocks.set i block ≠ [] := by rwa [Ne, List.set_eq_nil_iff]
  have hlast := headers_set hi hheader (blocks.length - 1)
  have hlast' := getElem?_last hset
  rw [List.length_set] at hlast'
  rw [hlast', getElem?_last hne] at hlast
  exact Option.some.inj hlast

/-- A path stays one when a block of it is replaced by one with its header. -/
theorem BlockPath.replace (hpath : BlockPath known blocks) {i : Nat} {old : Block} (hi : blocks[i]? = some old)
    (hheader : block.header = old.header) : BlockPath (known.insert block.hash block) (blocks.set i block) := by
  have hlt := (List.getElem?_eq_some_iff.mp hi).1
  have hsame := headers_set hi hheader
  refine ⟨?_, ?_, ?_, ?_⟩
  · intro j found hj
    rw [List.getElem?_set] at hj
    rw [GoMap.lookup_insert_if]
    by_cases hji : i = j
    · rw [if_pos hji, if_pos hlt] at hj
      rw [Option.some.inj hj, if_pos rfl]
    · rw [if_neg hji] at hj
      rw [if_neg, hpath.known _ _ hj]
      exact fun heq => hji (hpath.hash_inj hj hi (heq.trans (hash_congr hheader))).symm
  · intro j found hj
    have hfound := hsame j
    rw [hj] at hfound
    obtain ⟨found', hfound', hheader'⟩ := Option.map_eq_some_iff.mp hfound.symm
    rw [← hheader']
    exact hpath.height _ _ hfound'
  · intro j first second hfirst hsecond
    have hfirst' := hsame j
    have hsecond' := hsame (j + 1)
    rw [hfirst] at hfirst'
    rw [hsecond] at hsecond'
    obtain ⟨first', hfirst', hheader'⟩ := Option.map_eq_some_iff.mp hfirst'.symm
    obtain ⟨second', hsecond', hheader''⟩ := Option.map_eq_some_iff.mp hsecond'.symm
    rw [← hheader'', ← hash_congr hheader']
    exact hpath.linked _ _ _ hfirst' hsecond'
  · rw [Ne, List.set_eq_nil_iff]
    exact hpath.nonempty

theorem le_lockAfter (lock : FinalityLock) (block : Block) :
    lock.height.toNat ≤ (lockAfter lock block).height.toNat ∧
      block.header.height.toNat ≤ (lockAfter lock block).height.toNat := by
  unfold lockAfter
  split
  · next habove =>
    rw [gt_iff_lt, UInt64.lt_iff_toNat_lt] at habove
    exact ⟨habove.le, le_rfl⟩
  · next habove =>
    rw [gt_iff_lt, UInt64.lt_iff_toNat_lt, Nat.not_lt] at habove
    exact ⟨le_rfl, habove⟩

/-- With the certificates of the known blocks, the lock is the highest certified one. -/
theorem certified_insert (h : Chained headers known blocks lock) (hattached : block.finalityCertificate ≠ none →
    block.header.height.toNat ≤ lock'.height.toNat) (hraised : lock.height.toNat ≤ lock'.height.toNat) :
    ∀ blockHash found, (known.insert block.hash block).lookup blockHash = some found → found.finalityCertificate ≠ none →
      found.header.height.toNat ≤ lock'.height.toNat := by
  intro other found hfound hcertificate
  rw [GoMap.lookup_insert_if] at hfound
  split at hfound
  · obtain rfl := Option.some.inj hfound
    exact hattached hcertificate
  · exact (h.certified _ _ hfound hcertificate).trans hraised

/-- The certificate of a canonical block is attached to it, and the lock moves up to it. -/
theorem Chained.certify (h : Chained headers known blocks lock) {i : Nat} {old : Block} (hi : blocks[i]? = some old)
    (hheader : block.header = old.header) (hcertificate : block.finalityCertificate ≠ none) :
    Chained headers (known.insert block.hash block) (blocks.set i block) (lockAfter lock block) ∧
      Advances known lock (known.insert block.hash block) (lockAfter lock block) := by
  have hhash : block.hash = old.hash := hash_congr hheader
  have hlookup : known.lookup block.hash = some old := hhash ▸ h.path.known _ _ hi
  have hheight : block.header.height.toNat = i := hheader ▸ h.path.height _ _ hi
  obtain ⟨hextends, hback⟩ := extends_replace hlookup hheader
  have htree := h.tree.of_extends hextends hback
  obtain ⟨hraised, hcovers⟩ := le_lockAfter lock block
  -- the lock that the certificate leaves is canonical
  have hlockAfter : ∃ locked, blocks[(lockAfter lock block).height.toNat]? = some locked ∧
      locked.hash = (lockAfter lock block).blockHash := by
    unfold lockAfter
    split
    · exact ⟨old, hheight ▸ hi, hhash.symm⟩
    · exact h.locked
  obtain ⟨locked, hlocked, hlockedHash⟩ := hlockAfter
  have hdescends : DescendsFrom known (lockAfter lock block).blockHash lock.blockHash :=
    hlockedHash ▸ h.descends_lock hlocked hraised
  refine ⟨⟨htree, h.path.replace hi hheader, ?_, certified_insert h (fun _ => hcovers) hraised, ?_, ?_⟩, hraised,
    hextends.descends hdescends, hextends⟩
  · have hlocked' := headers_set hi hheader (lockAfter lock block).height.toNat
    rw [hlocked] at hlocked'
    obtain ⟨found, hfound, hfoundHeader⟩ := Option.map_eq_some_iff.mp hlocked'
    exact ⟨found, hfound, (hash_congr hfoundHeader).trans hlockedHash⟩
  · intro hpositive found hfound
    rw [GoMap.lookup_insert_if] at hfound
    split at hfound
    · obtain rfl := Option.some.inj hfound
      exact hcertificate
    · next hother =>
      unfold lockAfter at hpositive hfound hother
      split at hother
      · exact absurd rfl hother
      · next hbelow =>
        rw [if_neg hbelow] at hpositive hfound
        exact h.lockCertified hpositive _ hfound
  · intro other hother
    rw [header_getLastD_set hi hheader]
    have hmem : other ∈ known := hback.mem hother.1
    have hreflected := hextends.reflects h.tree htree.keyed hmem hother
    rw [hextends.heightOf hmem]
    exact h.highest _ (hreflected.trans hdescends)

/-! ### Import -/

/-- The invariant of a node. -/
def LabNode.OnChain (headers : List BlockHeader) (n : LabNode) : Prop :=
  Chained headers n.knownBlocks n.blocks n.finalityLock

/-- How a call moves the lock of a node. -/
def LabNode.Advanced (n n' : LabNode) : Prop :=
  Advances n.knownBlocks n.finalityLock n'.knownBlocks n'.finalityLock

variable {setup : Setup} {world : World} {n n' : LabNode}

omit [Primitives] in
theorem Stalled.chain (h : Stalled n n') :
    n'.knownBlocks = n.knownBlocks ∧ n'.blocks = n.blocks ∧ n'.finalityLock = n.finalityLock := by
  obtain ⟨_, _, _, rfl⟩ := h
  exact ⟨rfl, rfl, rfl⟩

theorem Noted.chain (h : Noted setup n n') :
    n'.knownBlocks = n.knownBlocks ∧ n'.blocks = n.blocks ∧ n'.finalityLock = n.finalityLock := by
  obtain ⟨⟨_, _, _, _, _, _, _, rfl⟩, -⟩ := h
  exact ⟨rfl, rfl, rfl⟩

theorem knownBlocks_withBlock (n : LabNode) (block : Block) :
    (withBlock n block).knownBlocks = n.knownBlocks.insert block.hash block := by
  unfold withBlock
  split
  · rfl
  · rfl

theorem blocks_withBlock (n : LabNode) (block : Block) : (withBlock n block).blocks = n.blocks := by
  unfold withBlock
  split
  · rfl
  · rfl

theorem finalityLock_withBlock (n : LabNode) (block : Block) :
    (withBlock n block).finalityLock =
      if lockAdvances n block = true then ⟨block.header.height, block.hash⟩ else n.finalityLock := by
  unfold withBlock
  split
  · rfl
  · rfl

omit [Primitives] in
theorem lockAdvances_iff : lockAdvances n block = true ↔
    block.finalityCertificate ≠ none ∧ n.finalityLock.height.toNat < block.header.height.toNat := by
  rw [lockAdvances, Bool.and_eq_true, decide_eq_true_eq, Option.isSome_iff_ne_none, gt_iff_lt, UInt64.lt_iff_toNat_lt]

/-- What an import has found out about the place of a block, before it installs it. -/
structure Placed (headers : List BlockHeader) (n : LabNode) (block : Block) : Prop where
  presented : block.header ∈ headers
  parent : ∃ parent, n.knownBlocks.lookup block.header.parentHash = some parent ∧
    parent.header.height.toNat + 1 = block.header.height.toNat
  attached : block.hash ∈ n.knownBlocks → block.finalityCertificate ≠ none

/-- A compatible block at or above the lock descends from it. -/
theorem descends_of_compatible (h : n.OnChain headers) (htree : Tree headers (n.knownBlocks.insert block.hash block))
    (hextends : Extends n.knownBlocks (n.knownBlocks.insert block.hash block))
    (hcompatible : (n.addKnown block).blockCompatibleWithFinalityLock block.hash = true)
    (hle : n.finalityLock.height.toNat ≤ block.header.height.toNat) :
    DescendsFrom (n.knownBlocks.insert block.hash block) block.hash n.finalityLock.blockHash := by
  have hlookup : (n.addKnown block).knownBlocks.lookup block.hash = some block := by
    rw [LabNode.addKnown, GoMap.lookup_insert_if, if_pos rfl]
  unfold LabNode.blockCompatibleWithFinalityLock at hcompatible
  rw [hlookup] at hcompatible
  dsimp only at hcompatible
  rw [if_pos (show block.header.height ≥ (n.addKnown block).finalityLock.height from UInt64.le_iff_toNat_le.mpr hle)]
    at hcompatible
  exact (knownBlockDescendsFrom_iff htree.keyed htree.links (h.lockKnown.extends' hextends)).mp hcompatible

/-- The lock that the certificate of a compatible block leaves. -/
structure LockMoved (headers : List BlockHeader) (n : LabNode) (block : Block) (lock : FinalityLock) : Prop where
  tree : Tree headers (n.knownBlocks.insert block.hash block)
  advances : Advances n.knownBlocks n.finalityLock (n.knownBlocks.insert block.hash block) lock
  known : LockKnown (n.knownBlocks.insert block.hash block) lock
  certified : ∀ blockHash found, (n.knownBlocks.insert block.hash block).lookup blockHash = some found →
    found.finalityCertificate ≠ none → found.header.height.toNat ≤ lock.height.toNat
  lockCertified : lock.height ≠ 0 → ∀ found, (n.knownBlocks.insert block.hash block).lookup lock.blockHash = some found →
    found.finalityCertificate ≠ none

theorem lockMoved (h : n.OnChain headers) (hfree : NoCollision headers) (hplaced : Placed headers n block)
    (hcompatible : (n.addKnown block).blockCompatibleWithFinalityLock block.hash = true) :
    LockMoved headers n block (withBlock n block).finalityLock := by
  obtain ⟨parent, hparent, hheight⟩ := hplaced.parent
  obtain ⟨htree, hextends⟩ := h.tree.insert hfree hplaced.presented hparent hheight
  have hinsert : (n.knownBlocks.insert block.hash block).lookup block.hash = some block := by
    rw [GoMap.lookup_insert_if, if_pos rfl]
  rw [finalityLock_withBlock]
  by_cases hadvances : lockAdvances n block = true
  · rw [if_pos hadvances]
    obtain ⟨hcertificate, habove⟩ := lockAdvances_iff.mp hadvances
    have hdescends := descends_of_compatible h htree hextends hcompatible habove.le
    refine ⟨htree, ⟨habove.le, hdescends, hextends⟩, ⟨mem_of_lookup hinsert, heightOf_of_lookup hinsert⟩,
      certified_insert h (fun _ => le_rfl) habove.le, fun _ found hfound => ?_⟩
    obtain rfl := Option.some.inj (hinsert.symm.trans hfound)
    exact hcertificate
  · rw [if_neg hadvances]
    rw [lockAdvances_iff, not_and, Nat.not_lt] at hadvances
    refine ⟨htree, ⟨le_rfl, hextends.descends ⟨h.lockKnown.1, .refl⟩, hextends⟩, h.lockKnown.extends' hextends,
      certified_insert h hadvances le_rfl, fun hpositive found hfound => ?_⟩
    rw [GoMap.lookup_insert_if] at hfound
    split at hfound
    · next heq =>
      obtain rfl := Option.some.inj hfound
      exact hplaced.attached (heq ▸ h.lockKnown.1)
    · exact h.lockCertified hpositive _ hfound

/-- What is known after a block was put among the known ones. -/
theorem mem_insert_cases {blockHash : String} (h : blockHash ∈ n.knownBlocks.insert block.hash block) :
    blockHash = block.hash ∨ blockHash ∈ n.knownBlocks :=
  Finmap.mem_insert.mp h

theorem knownChain_of_prepare {blockHash : String} {chain : List Block} {working : Store}
    {mempool queued : List Transaction}
    (h : prepareCanonicalChain setup n blockHash = .ok (chain, working, mempool, queued)) :
    n.knownChain blockHash = .ok chain := by
  simp only [prepareCanonicalChain, LabNode.replayKnownChain, bind_ok, pure_eq_ok, Except.ok.injEq, Prod.mk.injEq] at h
  obtain ⟨⟨chain', working'⟩, ⟨found, hfound, h'⟩, _, -, _, -, rfl, -⟩ := h
  cases found with
  | nil => cases h'
  | cons first rest =>
    simp only [bind_ok, Except.ok.injEq, Prod.mk.injEq] at h'
    obtain ⟨_, -, _, -, _, -, rfl, -⟩ := h'
    exact hfound

/-- A canonical chain to a highest descendant of the lock. -/
theorem reorganised_chained {lock : FinalityLock} {blockHash : String} {chain : List Block} {noted : LabNode}
    (hmoved : LockMoved headers n block lock) (hknown : noted.knownBlocks = n.knownBlocks.insert block.hash block)
    (hchain : noted.knownChain blockHash = .ok chain)
    (hdescends : DescendsFrom (n.knownBlocks.insert block.hash block) blockHash lock.blockHash)
    (hhighest : ∀ other, DescendsFrom (n.knownBlocks.insert block.hash block) other lock.blockHash →
      heightOf (n.knownBlocks.insert block.hash block) other ≤
        heightOf (n.knownBlocks.insert block.hash block) blockHash) :
    Chained headers (n.knownBlocks.insert block.hash block) chain lock := by
  obtain ⟨hpath, hlast⟩ := knownChain_path (hknown ▸ hmoved.tree) hchain
  rw [hknown] at hpath hlast
  have hhash : (chain.getLastD default).hash = blockHash := hmoved.tree.keyed _ _ hlast
  refine chained_of_path hmoved.tree hmoved.known hpath (hhash.symm ▸ hdescends) hmoved.certified hmoved.lockCertified ?_
  intro other hother
  exact (hhighest other hother).trans (heightOf_of_lookup hlast).le

theorem exists_of_containsLock {lock : FinalityLock}
    (h : LabNode.canonicalBlocksContainLock blocks lock = true) :
    ∃ found, blocks[lock.height.toNat]? = some found ∧ found.hash = lock.blockHash := by
  unfold LabNode.canonicalBlocksContainLock at h
  split at h
  · next found hfound => exact ⟨found, hfound, of_decide_eq_true h⟩
  · cases h

/-- A head that descends from the lock has it on its chain. -/
theorem contains_of_head_descends (h : n.OnChain headers) {lock : FinalityLock} (hmoved : LockMoved headers n block lock)
    (hdescends : DescendsFrom (n.knownBlocks.insert block.hash block) n.head.hash lock.blockHash) :
    LabNode.canonicalBlocksContainLock n.blocks lock = true := by
  have hhead : n.head.hash ∈ n.knownBlocks := mem_of_lookup h.path.head_known
  have hreflected := hmoved.advances.extends'.reflects h.tree hmoved.tree.keyed hhead hdescends
  obtain ⟨found, hfound, hhash⟩ := h.path.contains h.tree.links hreflected
  have hheight := hmoved.advances.extends'.heightOf hreflected.mem_ancestor
  rw [← hheight, hmoved.known.2] at hfound
  unfold LabNode.canonicalBlocksContainLock
  rw [hfound]
  exact decide_eq_true hhash

/-- The head that an import asks for: the fork choice where the lock left the canonical chain, and else a higher
block. -/
theorem desiredHead_cases (h : n.OnChain headers) (hfree : NoCollision headers) (hplaced : Placed headers n block)
    {noted : LabNode} (hmoved : LockMoved headers n block noted.finalityLock)
    (hknown : noted.knownBlocks = n.knownBlocks.insert block.hash block) (hblocks : noted.blocks = n.blocks)
    (horder : Enumerates world.order (n.knownBlocks.insert block.hash block)) {advanced : Bool} :
    (∃ choice, desiredHead world noted block advanced = some choice ∧
      Follows (n.knownBlocks.insert block.hash block) n.head noted.finalityLock choice) ∨
    (desiredHead world noted block advanced = some block.hash ∧ n.head.header.height.toNat < block.header.height.toNat ∧
      (advanced = true → LabNode.canonicalBlocksContainLock n.blocks noted.finalityLock = true)) ∨
    (desiredHead world noted block advanced = none ∧ block.header.height.toNat ≤ n.head.header.height.toNat ∧
      (advanced = true → LabNode.canonicalBlocksContainLock n.blocks noted.finalityLock = true)) := by
  have hhead : noted.head = n.head := congrArg (fun blocks => blocks.getLastD default) hblocks
  unfold desiredHead
  dsimp only
  rw [hhead, hblocks, hknown]
  by_cases hleft : advanced = true ∧ (!LabNode.canonicalBlocksContainLock n.blocks noted.finalityLock) = true
  · rw [if_pos hleft]
    have hheadHeader : ∀ found, (n.knownBlocks.insert block.hash block).lookup n.head.hash = some found →
        found.header = n.head.header := by
      intro found hfound
      obtain ⟨found', hfound', hheader⟩ := hmoved.advances.extends' _ _ h.path.head_known
      obtain rfl := Option.some.inj (hfound.symm.trans hfound')
      exact hheader
    have hfollows := highestKnownDescendantLocked_follows hmoved.tree.keyed hmoved.tree.links hmoved.known hheadHeader
      horder
    refine .inl ⟨_, ?_, hfollows⟩
    rw [Option.filter_some, if_pos]
    refine decide_eq_true ⟨fun hempty => ?_, fun hhead => ?_⟩
    · exact hmoved.tree.keyed.notMem_empty (hempty ▸ hfollows.descends.1)
    · have hcontains := contains_of_head_descends h hmoved (hhead ▸ hfollows.descends)
      rw [hcontains] at hleft
      cases hleft.2
  · rw [if_neg hleft]
    have hcontains : advanced = true → LabNode.canonicalBlocksContainLock n.blocks noted.finalityLock = true := by
      intro hadvanced
      by_contra hnot
      exact hleft ⟨hadvanced, by simpa using hnot⟩
    by_cases habove : block.header.height > n.head.header.height
    · rw [if_pos habove]
      rw [gt_iff_lt, UInt64.lt_iff_toNat_lt] at habove
      refine .inr (.inl ⟨?_, habove, hcontains⟩)
      rw [Option.filter_some, if_pos]
      refine decide_eq_true ⟨hash_ne_empty block, fun hhead => ?_⟩
      have hlookup := h.path.head_known
      rw [show (n.blocks.getLastD default).hash = block.hash from hhead.symm] at hlookup
      have hheader := h.tree.header_eq hfree hplaced.presented hlookup
      have hheights := congrArg (fun header : BlockHeader => header.height.toNat) hheader
      exact absurd habove (by rw [← hheights]; exact lt_irrefl _)
    · rw [if_neg habove]
      rw [gt_iff_lt, UInt64.lt_iff_toNat_lt, Nat.not_lt] at habove
      exact .inr (.inr ⟨rfl, habove, hcontains⟩)

/-- A known block above the head would have been the head. -/
theorem highest_insert (h : n.OnChain headers) {lock : FinalityLock} (hmoved : LockMoved headers n block lock) {limit : Nat}
    (hhead : n.head.header.height.toNat ≤ limit) (hblock : block.header.height.toNat ≤ limit) :
    ∀ other, DescendsFrom (n.knownBlocks.insert block.hash block) other lock.blockHash →
      heightOf (n.knownBlocks.insert block.hash block) other ≤ limit := by
  intro other hother
  rcases mem_insert_cases hother.1 with rfl | hmem
  · have hlookup : (n.knownBlocks.insert block.hash block).lookup block.hash = some block := by
      rw [GoMap.lookup_insert_if, if_pos rfl]
    rw [heightOf_of_lookup hlookup]
    exact hblock
  · have hextends := hmoved.advances.extends'
    have hreflected := hextends.reflects h.tree hmoved.tree.keyed hmem (hother.trans hmoved.advances.descends)
    rw [hextends.heightOf hmem]
    exact (h.highest _ hreflected).trans hhead

/-- Where a block is on the canonical chain, it has its height as index and its header. -/
theorem canonical_header (h : n.OnChain headers) (hfree : NoCollision headers) (hplaced : Placed headers n block) {i : Nat}
    {found : Block} (hfound : n.blocks[i]? = some found) (hhash : found.hash = block.hash) :
    i = block.header.height.toNat ∧ found.header = block.header := by
  have hlookup := h.path.known _ _ hfound
  rw [hhash] at hlookup
  have hheader := h.tree.header_eq hfree hplaced.presented hlookup
  exact ⟨(h.path.height _ _ hfound).symm.trans (congrArg (fun header : BlockHeader => header.height.toNat) hheader),
    hheader⟩

/-- A block above the head does not move the lock: the lock would be canonical, and not above the head. -/
theorem not_lockAdvances_of_above (h : n.OnChain headers) (habove : n.head.header.height.toNat < block.header.height.toNat)
    (hcontains : lockAdvances n block = true →
      LabNode.canonicalBlocksContainLock n.blocks (withBlock n block).finalityLock = true) :
    ¬lockAdvances n block = true := by
  intro hadvances
  obtain ⟨found, hfound, -⟩ := exists_of_containsLock (hcontains hadvances)
  rw [finalityLock_withBlock, if_pos hadvances] at hfound
  have hle := h.path.index_le hfound
  exact absurd (Nat.lt_of_lt_of_le habove hle) (lt_irrefl _)

/-- A higher block becomes the head. -/
theorem chained_of_higher (h : n.OnChain headers) (hmoved : LockMoved headers n block (withBlock n block).finalityLock)
    (hcompatible : (n.addKnown block).blockCompatibleWithFinalityLock block.hash = true)
    (habove : n.head.header.height.toNat < block.header.height.toNat) (hstill : ¬lockAdvances n block = true)
    {noted : LabNode} (hknown : noted.knownBlocks = n.knownBlocks.insert block.hash block) {chain : List Block}
    (hchain : noted.knownChain block.hash = .ok chain) :
    Chained headers (n.knownBlocks.insert block.hash block) chain (withBlock n block).finalityLock := by
  have hlookup : (n.knownBlocks.insert block.hash block).lookup block.hash = some block := by
    rw [GoMap.lookup_insert_if, if_pos rfl]
  have hdescends : DescendsFrom (n.knownBlocks.insert block.hash block) block.hash
      (withBlock n block).finalityLock.blockHash := by
    rw [finalityLock_withBlock, if_neg hstill]
    have hle := h.head_descends.height_le h.tree.links
    rw [h.lockKnown.2, heightOf_of_lookup h.path.head_known] at hle
    exact descends_of_compatible h hmoved.tree hmoved.advances.extends' hcompatible (hle.trans habove.le)
  refine reorganised_chained hmoved hknown hchain hdescends fun other hother => ?_
  rw [heightOf_of_lookup hlookup]
  exact highest_insert h hmoved habove.le le_rfl other hother

/-- The lock after a certified block is installed. -/
theorem finalityLock_withBlock_certified (hcertificate : block.finalityCertificate ≠ none) :
    (withBlock n block).finalityLock = lockAfter n.finalityLock block := by
  rw [finalityLock_withBlock, lockAfter]
  by_cases habove : block.header.height > n.finalityLock.height
  · rw [if_pos habove, if_pos]
    exact lockAdvances_iff.mpr ⟨hcertificate, UInt64.lt_iff_toNat_lt.mp habove⟩
  · rw [if_neg habove, if_neg]
    exact fun hadvances => habove (UInt64.lt_iff_toNat_lt.mpr (lockAdvances_iff.mp hadvances).2)

/-- A block beside the canonical chain that is not higher than the head leaves the chain as it is. -/
theorem chained_of_side (h : n.OnChain headers) (hmoved : LockMoved headers n block (withBlock n block).finalityLock)
    (hbelow : block.header.height.toNat ≤ n.head.header.height.toNat)
    (hcontains : lockAdvances n block = true →
      LabNode.canonicalBlocksContainLock n.blocks (withBlock n block).finalityLock = true)
    (hside : ∀ (i : Nat) found, n.blocks[i]? = some found → found.hash ≠ block.hash) :
    Chained headers (n.knownBlocks.insert block.hash block) n.blocks (withBlock n block).finalityLock := by
  have hstill : ¬lockAdvances n block = true := by
    intro hadvances
    obtain ⟨found, hfound, hhash⟩ := exists_of_containsLock (hcontains hadvances)
    rw [finalityLock_withBlock, if_pos hadvances] at hhash
    exact hside _ _ hfound hhash
  have hpath : BlockPath (n.knownBlocks.insert block.hash block) n.blocks := by
    refine ⟨fun i found hfound => ?_, h.path.height, h.path.linked, h.path.nonempty⟩
    rw [GoMap.lookup_insert_if, if_neg (hside i found hfound), h.path.known _ _ hfound]
  refine ⟨hmoved.tree, hpath, ?_, hmoved.certified, hmoved.lockCertified, highest_insert h hmoved le_rfl hbelow⟩
  rw [finalityLock_withBlock, if_neg hstill]
  exact h.locked

/-- The change of the canonical chain keeps the invariant. -/
theorem canonicalChange_chained (h : n.OnChain headers) (hfree : NoCollision headers) (hplaced : Placed headers n block)
    (hcompatible : (n.addKnown block).blockCompatibleWithFinalityLock block.hash = true)
    (horder : Enumerates world.order (n.knownBlocks.insert block.hash block)) {noted : LabNode}
    (hnoted : Noted setup (withBlock n block) noted) {change : CanonicalChange}
    (hchange : canonicalChange setup world noted block (block.hash ∈ n.knownBlocks) (lockAdvances n block) = .ok change) :
    (applyChange noted change).OnChain headers := by
  obtain ⟨hknown, hblocks, hlock⟩ := hnoted.chain
  rw [knownBlocks_withBlock] at hknown
  rw [blocks_withBlock] at hblocks
  have hmoved := lockMoved h hfree hplaced hcompatible
  have hdesired := @desiredHead_cases _ _ block world n h hfree hplaced noted (hlock ▸ hmoved) hknown hblocks horder
    (lockAdvances n block)
  rw [hlock] at hdesired
  unfold canonicalChange at hchange
  obtain ⟨choice, hdesired, hfollows⟩ | ⟨hdesired, habove, hcontains⟩ | ⟨hdesired, hbelow, hcontains⟩ := hdesired
  · rw [hdesired] at hchange
    simp only [bind_ok, pure_eq_ok, Except.ok.injEq] at hchange
    obtain ⟨⟨chain, working, mempool, queued⟩, hprepare, rfl⟩ := hchange
    have hchain := reorganised_chained hmoved hknown (knownChain_of_prepare hprepare) hfollows.descends hfollows.highest
    rw [← hknown, ← hlock] at hchain
    exact hchain
  · rw [hdesired] at hchange
    simp only [bind_ok, pure_eq_ok, Except.ok.injEq] at hchange
    obtain ⟨⟨chain, working, mempool, queued⟩, hprepare, rfl⟩ := hchange
    have hstill := not_lockAdvances_of_above h habove hcontains
    have hchain := chained_of_higher h hmoved hcompatible habove hstill hknown (knownChain_of_prepare hprepare)
    rw [← hknown, ← hlock] at hchain
    exact hchain
  · rw [hdesired] at hchange
    dsimp only at hchange
    split at hchange
    · next hcertified =>
      obtain rfl := Except.ok.inj hchange
      obtain ⟨hmem, found, hfound, hhash⟩ := hcertified
      rw [decide_eq_true_eq] at hmem
      rw [hblocks] at hfound
      have hfound : n.blocks[block.header.height.toNat]? = some found := hfound
      have hheader := (canonical_header h hfree hplaced hfound hhash).2
      have hcertificate := hplaced.attached hmem
      have hcertify := (h.certify hfound hheader.symm hcertificate).1
      rw [← finalityLock_withBlock_certified hcertificate, ← hlock, ← hknown, ← hblocks] at hcertify
      exact hcertify
    · next hother =>
      obtain rfl := Except.ok.inj hchange
      have hside : ∀ (i : Nat) found, n.blocks[i]? = some found → found.hash ≠ block.hash := by
        intro i found hfound hhash
        obtain ⟨rfl, -⟩ := canonical_header h hfree hplaced hfound hhash
        have hmem : block.hash ∈ n.knownBlocks := hhash ▸ mem_of_lookup (h.path.known _ _ hfound)
        exact hother ⟨decide_eq_true hmem, found, by rw [hblocks]; exact hfound, hhash⟩
      have hchain := chained_of_side h hmoved hbelow hcontains hside
      rw [← hknown, ← hlock, ← hblocks] at hchain
      exact hchain

/-- An import that is not refused keeps the invariant, and moves the lock to a descendant if it moves it. -/
theorem Installed.chained (h : n.OnChain headers) (hfree : NoCollision headers) (hplaced : Placed headers n block)
    (horder : Enumerates world.order (n.knownBlocks.insert block.hash block))
    (hinstalled : Installed setup world n block n') : n'.OnChain headers ∧ n.Advanced n' := by
  obtain ⟨hcompatible, noted, change, hnoted, hchange, hstalled⟩ := hinstalled
  have hchained := canonicalChange_chained h hfree hplaced hcompatible horder hnoted hchange
  have hmoved := lockMoved h hfree hplaced hcompatible
  obtain ⟨hknown, hblocks, hlock⟩ := hstalled.chain
  obtain ⟨hknown', -, hlock'⟩ := hnoted.chain
  have happly : (applyChange noted change).knownBlocks = noted.knownBlocks ∧
      (applyChange noted change).finalityLock = noted.finalityLock := by
    cases change with
    | reorganised chain state mempool queued => exact ⟨rfl, rfl⟩
    | certified blocks => exact ⟨rfl, rfl⟩
    | unchanged => exact ⟨rfl, rfl⟩
  constructor
  · unfold LabNode.OnChain
    rw [hknown, hblocks, hlock]
    exact hchained
  · unfold LabNode.Advanced
    rw [hknown, hlock, happly.1, happly.2, hknown', hlock', knownBlocks_withBlock]
    exact hmoved.advances

/-! ### Votes and production -/

/-- An accepted vote keeps the invariant; one that completes a quorum may move the lock up the canonical chain. -/
theorem Voted.chained {vote : FinalitySignature} (h : n.OnChain headers) (hvoted : Voted setup n vote n') :
    n'.OnChain headers ∧ n.Advanced n' := by
  cases hvoted with
  | counted _ _ hfirst hstalled =>
    obtain ⟨hknown, hblocks, hlock⟩ := hstalled.chain
    have hsame : n'.knownBlocks = n.knownBlocks ∧ n'.blocks = n.blocks ∧ n'.finalityLock = n.finalityLock := by
      rcases hfirst with rfl | rfl
      · exact ⟨hknown, hblocks, hlock⟩
      · exact ⟨hknown, hblocks, hlock⟩
    unfold LabNode.OnChain LabNode.Advanced
    rw [hsame.1, hsame.2.1, hsame.2.2]
    exact ⟨h, h.stays⟩
  | @certified block certified _ recorded _ _ hmatched hfirst hcertified hvalid hstalled =>
    have hheader : certified.header = block.header := by rw [hcertified, certifiedBlock]
    have hcertificate : certified.finalityCertificate ≠ none := by
      rw [hcertified, certifiedBlock]
      exact Option.some_ne_none _
    obtain ⟨i, hi⟩ := List.mem_iff_getElem?.mp (mem_of_matchFinalityVote hmatched)
    have hindex : certified.header.height.toNat = i := hheader ▸ h.path.height _ _ hi
    obtain ⟨hknown, hblocks, hlock⟩ := hstalled.chain
    have hafter : n'.knownBlocks = n.knownBlocks.insert certified.hash certified ∧
        n'.finalityLock = lockAfter n.finalityLock certified := by
      rw [hknown, hlock]
      rcases hfirst with rfl | rfl
      · exact ⟨rfl, rfl⟩
      · exact ⟨rfl, rfl⟩
    have hcertify := h.certify hi hheader hcertificate
    unfold LabNode.OnChain LabNode.Advanced
    rw [hafter.1, hafter.2, hblocks, ← hindex] at *
    exact hcertify

variable {working : Store} {mempool queued : List Transaction}

theorem Drafted.links (h : Drafted setup world n block working mempool queued) :
    block.header.parentHash = n.head.hash ∧ n.head.header.height.toNat + 1 = block.header.height.toNat :=
  validateBlock_links h.valid

theorem Drafted.uncertified (h : Drafted setup world n block working mempool queued) :
    block.finalityCertificate = none := by
  obtain ⟨_, _, _, _, -, -, -, -, -, rfl, -⟩ := h.parts
  rfl

/-- A produced block becomes the head. -/
theorem Drafted.published_chained (hdrafted : Drafted setup world n block working mempool queued) (h : n.OnChain headers)
    (hfree : NoCollision headers) (hpresented : block.header ∈ headers) :
    (published n block working mempool queued).OnChain headers ∧
      n.Advanced (published n block working mempool queued) :=
  h.publish hfree hpresented hdrafted.links.1 hdrafted.links.2 hdrafted.uncertified

/-- A block that could not be persisted is forgotten. -/
theorem Drafted.withdrawn_unmoved (hdrafted : Drafted setup world n block working mempool queued) (h : n.OnChain headers)
    (hfree : NoCollision headers) (hpresented : block.header ∈ headers) (hwithdrawn : withdrawn n block n') :
    ∃ knownBlockHeights, Stalled { n with knownBlockHeights } n' := by
  have hfresh := h.fresh hfree hpresented hdrafted.links.1 hdrafted.links.2
  obtain ⟨heights, hstalled⟩ := hwithdrawn
  have hrestored : (n.knownBlocks.insert block.hash block).erase block.hash = n.knownBlocks := by
    have hlookup := known_restored n block
    rwa [Finmap.lookup_eq_none.mpr hfresh] at hlookup
  rw [hrestored] at hstalled
  exact ⟨heights, hstalled⟩

end Chains

end ChainLab.Node
