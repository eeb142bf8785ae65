import ChainLab.Node.State

/-! The tree of the known blocks: every block but the genesis block has its parent one below it, so that the blocks
below a block form one path. -/

namespace ChainLab.Node

open ChainLab.Lib ChainLab.Types ChainLab.Crypto
open Relation (ReflTransGen)

section Trees

variable [Primitives]

/-- No two headers have one hash. -/
def NoCollision (headers : List BlockHeader) : Prop :=
  ∀ left ∈ headers, ∀ right ∈ headers, keccakHex left.signingBytes = keccakHex right.signingBytes → left = right

instance (headers : List BlockHeader) : Decidable (NoCollision headers) :=
  inferInstanceAs (Decidable (∀ left ∈ headers, ∀ right ∈ headers,
    keccakHex left.signingBytes = keccakHex right.signingBytes → left = right))

/-- Known blocks with their parents, whose headers are among given ones. -/
structure Tree (headers : List BlockHeader) (known : GoMap String Block) : Prop where
  keyed : KeyedByHash known
  presented : ∀ blockHash block, known.lookup blockHash = some block → block.header ∈ headers
  root : ∀ blockHash block, known.lookup blockHash = some block → block.header.height = 0 →
    block.header.parentHash = ""
  parents : ∀ blockHash block, known.lookup blockHash = some block → block.header.height ≠ 0 →
    ∃ parent, known.lookup block.header.parentHash = some parent ∧
      parent.header.height.toNat + 1 = block.header.height.toNat

variable {headers more : List BlockHeader} {known known' : GoMap String Block} {blockHash ancestor : String}
  {block parent : Block}

theorem hash_ne_empty (block : Block) : block.hash ≠ "" := by
  intro h
  have hlist := congrArg String.toList h
  rw [Block.hash, keccakHex, String.toList_ofList] at hlist
  cases hlist

theorem hash_congr {left right : Block} (h : left.header = right.header) : left.hash = right.hash := by
  rw [Block.hash, Block.hash, h]

theorem NoCollision.of_append (h : NoCollision (more ++ headers)) : NoCollision headers :=
  fun left hleft right hright => h left (List.mem_append_right _ hleft) right (List.mem_append_right _ hright)

/-- A block and a known one of its hash have one header. -/
theorem Tree.header_eq (htree : Tree headers known) (hfree : NoCollision headers) (hpresented : block.header ∈ headers)
    {other : Block} (hother : known.lookup block.hash = some other) : other.header = block.header :=
  hfree _ (htree.presented _ _ hother) _ hpresented (htree.keyed _ _ hother)

theorem KeyedByHash.notMem_empty (hkeyed : KeyedByHash known) : "" ∉ known := by
  intro hmem
  obtain ⟨block, hblock⟩ := Finmap.mem_iff.mp hmem
  exact hash_ne_empty block (hkeyed _ _ hblock)

theorem Tree.links (htree : Tree headers known) : ConsecutiveLinks known := by
  rintro child _ ⟨block, hblock, rfl, hmem⟩
  by_cases hzero : block.header.height = 0
  · rw [htree.root _ _ hblock hzero] at hmem
    exact absurd hmem htree.keyed.notMem_empty
  · obtain ⟨parent, hparent, hheight⟩ := htree.parents _ _ hblock hzero
    rw [heightOf_of_lookup hparent, heightOf_of_lookup hblock, hheight]

theorem Tree.mono (htree : Tree headers known) (hsubset : headers ⊆ more) : Tree more known :=
  ⟨htree.keyed, fun _ _ h => hsubset (htree.presented _ _ h), htree.root, htree.parents⟩

/-! ### Ancestors -/

omit [Primitives] in
theorem parentOf_unique : Relator.RightUnique (ParentOf known) := by
  rintro child left right ⟨block, hblock, rfl, -⟩ ⟨block', hblock', rfl, -⟩
  rw [Option.some.inj (hblock.symm.trans hblock')]

omit [Primitives] in
/-- An ancestor that is not lower is the block itself. -/
theorem DescendsFrom.eq_of_height (hlinks : ConsecutiveLinks known) (h : DescendsFrom known blockHash ancestor)
    (hheight : heightOf known blockHash ≤ heightOf known ancestor) : blockHash = ancestor := by
  rcases h.2.cases_head with heq | ⟨next, hlink, hrest⟩
  · exact heq
  · have hbelow := DescendsFrom.height_le hlinks ⟨hlink.choose_spec.2.2, hrest⟩
    have hstep := hlinks _ _ hlink
    omega

omit [Primitives] in
theorem DescendsFrom.mem_ancestor (h : DescendsFrom known blockHash ancestor) : ancestor ∈ known := by
  obtain ⟨hmem, hpath⟩ := h
  rcases hpath.cases_tail with heq | ⟨last, -, hlink⟩
  · exact heq ▸ hmem
  · exact hlink.choose_spec.2.2

omit [Primitives] in
theorem DescendsFrom.trans {middle : String} (h : DescendsFrom known blockHash middle)
    (h' : DescendsFrom known middle ancestor) : DescendsFrom known blockHash ancestor :=
  ⟨h.1, h.2.trans h'.2⟩

omit [Primitives] in
/-- A block has one ancestor of each height. -/
theorem DescendsFrom.unique (hlinks : ConsecutiveLinks known) {other : String}
    (h : DescendsFrom known blockHash ancestor) (h' : DescendsFrom known blockHash other)
    (hheight : heightOf known ancestor = heightOf known other) : ancestor = other := by
  rcases h.2.total_of_right_unique parentOf_unique h'.2 with hpath | hpath
  · exact DescendsFrom.eq_of_height hlinks ⟨h.mem_ancestor, hpath⟩ hheight.le
  · exact (DescendsFrom.eq_of_height hlinks ⟨h'.mem_ancestor, hpath⟩ hheight.ge).symm

/-! ### Growth -/

/-- The known blocks stay known with their headers. -/
def Extends (known known' : GoMap String Block) : Prop :=
  ∀ blockHash block, known.lookup blockHash = some block →
    ∃ block', known'.lookup blockHash = some block' ∧ block'.header = block.header

omit [Primitives] in
theorem Extends.refl (known : GoMap String Block) : Extends known known := fun _ block h => ⟨block, h, rfl⟩

omit [Primitives] in
theorem Extends.mem (h : Extends known known') (hmem : blockHash ∈ known) : blockHash ∈ known' := by
  obtain ⟨block, hblock⟩ := Finmap.mem_iff.mp hmem
  obtain ⟨block', hblock', -⟩ := h _ _ hblock
  exact mem_of_lookup hblock'

omit [Primitives] in
theorem Extends.heightOf (h : Extends known known') (hmem : blockHash ∈ known) :
    heightOf known' blockHash = heightOf known blockHash := by
  obtain ⟨block, hblock⟩ := Finmap.mem_iff.mp hmem
  obtain ⟨block', hblock', hheader⟩ := h _ _ hblock
  rw [heightOf_of_lookup hblock, heightOf_of_lookup hblock', hheader]

omit [Primitives] in
theorem Extends.descends (h : Extends known known') (hdescends : DescendsFrom known blockHash ancestor) :
    DescendsFrom known' blockHash ancestor := by
  refine ⟨h.mem hdescends.1, ReflTransGen.mono ?_ _ _ hdescends.2⟩
  rintro child _ ⟨block, hblock, rfl, hmem⟩
  obtain ⟨block', hblock', hheader⟩ := h _ _ hblock
  exact ⟨block', hblock', by rw [hheader], h.mem hmem⟩

/-- A tree that grows adds no ancestors to its blocks. -/
theorem Extends.reflects (h : Extends known known') (htree : Tree headers known) (hkeyed : KeyedByHash known')
    (hmem : blockHash ∈ known) (hdescends : DescendsFrom known' blockHash ancestor) :
    DescendsFrom known blockHash ancestor := by
  obtain ⟨-, hpath⟩ := hdescends
  induction hpath using ReflTransGen.head_induction_on with
  | refl => exact ⟨hmem, .refl⟩
  | head hlink _ ih =>
    obtain ⟨block', hblock', rfl, hparentMem⟩ := hlink
    obtain ⟨block, hblock⟩ := Finmap.mem_iff.mp hmem
    obtain ⟨block'', hblock'', hheader⟩ := h _ _ hblock
    obtain rfl := Option.some.inj (hblock'.symm.trans hblock'')
    rw [hheader] at ih hparentMem
    have hzero : block.header.height ≠ 0 := by
      intro hzero
      rw [htree.root _ _ hblock hzero] at hparentMem
      exact hkeyed.notMem_empty hparentMem
    obtain ⟨parent, hparent, -⟩ := htree.parents _ _ hblock hzero
    have hparentKnown := mem_of_lookup hparent
    obtain ⟨-, hrest⟩ := ih hparentKnown
    exact ⟨hmem, hrest.head ⟨block, hblock, rfl, hparentKnown⟩⟩

/-- A block is put among the known ones above its parent, whether or not it was known. -/
theorem Tree.insert (htree : Tree headers known) (hfree : NoCollision headers) (hpresented : block.header ∈ headers)
    (hparent : known.lookup block.header.parentHash = some parent)
    (hheight : parent.header.height.toNat + 1 = block.header.height.toNat) :
    Tree headers (known.insert block.hash block) ∧ Extends known (known.insert block.hash block) := by
  have hextends : Extends known (known.insert block.hash block) := by
    intro other known' hother
    rw [GoMap.lookup_insert_if]
    split
    · next heq =>
      subst heq
      exact ⟨block, rfl, (htree.header_eq hfree hpresented hother).symm⟩
    · exact ⟨known', hother, rfl⟩
  have hcases : ∀ other found, (known.insert block.hash block).lookup other = some found →
      other = block.hash ∧ found = block ∨ known.lookup other = some found := by
    intro other found hfound
    rw [GoMap.lookup_insert_if] at hfound
    split at hfound
    · next heq => exact .inl ⟨heq, (Option.some.inj hfound).symm⟩
    · exact .inr hfound
  refine ⟨⟨?_, ?_, ?_, ?_⟩, hextends⟩
  · intro other found hfound
    rcases hcases other found hfound with ⟨rfl, rfl⟩ | hold
    · rfl
    · exact htree.keyed _ _ hold
  · intro other found hfound
    rcases hcases other found hfound with ⟨rfl, rfl⟩ | hold
    · exact hpresented
    · exact htree.presented _ _ hold
  · intro other found hfound hzero
    rcases hcases other found hfound with ⟨rfl, rfl⟩ | hold
    · rw [hzero] at hheight
      cases hheight
    · exact htree.root _ _ hold hzero
  · intro other found hfound hzero
    have hold : ∃ p, known.lookup found.header.parentHash = some p ∧
        p.header.height.toNat + 1 = found.header.height.toNat := by
      rcases hcases other found hfound with ⟨rfl, rfl⟩ | hold
      · exact ⟨parent, hparent, hheight⟩
      · exact htree.parents _ _ hold hzero
    obtain ⟨p, hp, hstep⟩ := hold
    obtain ⟨p', hp', hheader⟩ := hextends _ _ hp
    exact ⟨p', hp', by rw [hheader, hstep]⟩

/-! ### Paths -/

/-- A list of known blocks from height zero upwards, each the parent of the next. -/
structure BlockPath (known : GoMap String Block) (blocks : List Block) : Prop where
  known : ∀ (i : Nat) block, blocks[i]? = some block → known.lookup block.hash = some block
  height : ∀ (i : Nat) block, blocks[i]? = some block → block.header.height.toNat = i
  linked : ∀ (i : Nat) parent block, blocks[i]? = some parent → blocks[i + 1]? = some block →
    block.header.parentHash = parent.hash
  nonempty : blocks ≠ []

variable {blocks : List Block}

theorem BlockPath.mem_known (hpath : BlockPath known blocks) (hmem : block ∈ blocks) : known.lookup block.hash = some block := by
  obtain ⟨i, hi⟩ := List.mem_iff_getElem?.mp hmem
  exact hpath.known i block hi

/-- Later blocks of a path descend from earlier ones. -/
theorem BlockPath.descends (hpath : BlockPath known blocks) {i : Nat} (hi : blocks[i]? = some parent) (distance : Nat) :
    ∀ {block : Block}, blocks[i + distance]? = some block → DescendsFrom known block.hash parent.hash := by
  induction distance with
  | zero =>
    intro block hblock
    obtain rfl := Option.some.inj (hi.symm.trans hblock)
    exact ⟨mem_of_lookup (hpath.known _ _ hi), .refl⟩
  | succ distance ih =>
    intro block hblock
    have hlt : i + distance < blocks.length := by
      have := (List.getElem?_eq_some_iff.mp hblock).1
      omega
    obtain ⟨previous, hprevious⟩ : ∃ previous, blocks[i + distance]? = some previous :=
      ⟨_, List.getElem?_eq_getElem hlt⟩
    have hlink := hpath.linked _ _ _ hprevious hblock
    have hbelow := ih hprevious
    have hmem := mem_of_lookup (hpath.known _ _ hprevious)
    exact ⟨mem_of_lookup (hpath.known _ _ hblock),
      hbelow.2.head ⟨block, hpath.known _ _ hblock, hlink, hmem⟩⟩

omit [Primitives] in
theorem getElem?_last (hne : blocks ≠ []) : blocks[blocks.length - 1]? = some (blocks.getLastD default) := by
  rw [List.getLastD_eq_getLast?, ← List.getLast?_eq_getElem?, List.getLast?_eq_some_getLast hne]
  rfl

theorem BlockPath.head_known (hpath : BlockPath known blocks) :
    known.lookup (blocks.getLastD default).hash = some (blocks.getLastD default) :=
  hpath.known _ _ (getElem?_last hpath.nonempty)

theorem BlockPath.head_height (hpath : BlockPath known blocks) :
    (blocks.getLastD default).header.height.toNat + 1 = blocks.length := by
  have hheight := hpath.height _ _ (getElem?_last hpath.nonempty)
  have hpos := List.length_pos_iff.mpr hpath.nonempty
  omega

/-- A block of a path is not above its last one. -/
theorem BlockPath.index_le (hpath : BlockPath known blocks) {i : Nat} (hi : blocks[i]? = some block) :
    i ≤ (blocks.getLastD default).header.height.toNat := by
  have hlt := (List.getElem?_eq_some_iff.mp hi).1
  have hlast := hpath.head_height
  omega

/-- What the last block of a path descends from is on the path. -/
theorem BlockPath.contains (hpath : BlockPath known blocks) (hlinks : ConsecutiveLinks known)
    (h : DescendsFrom known (blocks.getLastD default).hash ancestor) :
    ∃ block, blocks[heightOf known ancestor]? = some block ∧ block.hash = ancestor := by
  have hle := h.height_le hlinks
  rw [heightOf_of_lookup hpath.head_known] at hle
  have hlast := hpath.head_height
  obtain ⟨block, hblock⟩ : ∃ block, blocks[heightOf known ancestor]? = some block :=
    ⟨_, List.getElem?_eq_getElem (by omega)⟩
  have hdistance : heightOf known ancestor + (blocks.length - 1 - heightOf known ancestor) = blocks.length - 1 := by
    omega
  have hdescends := hpath.descends hblock (blocks.length - 1 - heightOf known ancestor)
    (hdistance ▸ getElem?_last hpath.nonempty)
  refine ⟨block, hblock, DescendsFrom.unique hlinks hdescends h ?_⟩
  rw [heightOf_of_lookup (hpath.known _ _ hblock), hpath.height _ _ hblock]

/-- The blocks of a path have different hashes. -/
theorem BlockPath.hash_inj (hpath : BlockPath known blocks) {i j : Nat} {left right : Block} (hi : blocks[i]? = some left)
    (hj : blocks[j]? = some right) (h : left.hash = right.hash) : i = j := by
  have hsame : left = right := by
    have hleft := hpath.known _ _ hi
    rw [h, hpath.known _ _ hj] at hleft
    exact (Option.some.inj hleft).symm
  rw [← hpath.height _ _ hi, ← hpath.height _ _ hj, hsame]

/-- The walk to the genesis block collects a path. -/
theorem knownAncestors_path (htree : Tree headers known) (steps : Nat) :
    ∀ {block : Block} {above chain : List Block}, LabNode.knownAncestors known steps block above = .ok chain →
      (∀ (i : Nat) b, (block :: above)[i]? = some b →
        known.lookup b.hash = some b ∧ b.header.height.toNat = block.header.height.toNat + i) →
      (∀ (i : Nat) p b, (block :: above)[i]? = some p → (block :: above)[i + 1]? = some b → b.header.parentHash = p.hash) →
      BlockPath known chain ∧ ∃ below, chain = below ++ block :: above := by
  induction steps with
  | zero =>
    intro block above chain h
    cases h
  | succ steps ih =>
    intro block above chain h hknown hlinked
    obtain ⟨hblock, -⟩ := hknown 0 block rfl
    unfold LabNode.knownAncestors at h
    split at h
    · next hpositive =>
      simp only [bind_ok, require_ok] at h
      obtain ⟨parent, hparent, h⟩ := h
      have hzero : block.header.height ≠ 0 := by
        intro hzero
        rw [hzero] at hpositive
        exact UInt64.lt_irrefl 0 hpositive
      obtain ⟨parent', hparent', hheight⟩ := htree.parents _ _ hblock hzero
      obtain rfl := Option.some.inj (hparent.symm.trans hparent')
      have hparentHash := htree.keyed _ _ hparent
      have hknown' : ∀ (i : Nat) b, (parent :: block :: above)[i]? = some b →
          known.lookup b.hash = some b ∧ b.header.height.toNat = parent.header.height.toNat + i := by
        intro i b hb
        cases i with
        | zero =>
          obtain rfl := Option.some.inj hb
          exact ⟨hparentHash.symm ▸ hparent, rfl⟩
        | succ i =>
          obtain ⟨hlookup, hb⟩ := hknown i b hb
          exact ⟨hlookup, by omega⟩
      have hlinked' : ∀ (i : Nat) p b, (parent :: block :: above)[i]? = some p →
          (parent :: block :: above)[i + 1]? = some b → b.header.parentHash = p.hash := by
        intro i p b hp hb
        cases i with
        | zero =>
          obtain rfl := Option.some.inj hp
          obtain rfl := Option.some.inj hb
          exact hparentHash.symm
        | succ i => exact hlinked i p b hp hb
      obtain ⟨hpath, below, hbelow⟩ := ih h hknown' hlinked'
      refine ⟨hpath, below ++ [parent], ?_⟩
      rw [hbelow, List.append_assoc]
      rfl
    · next hpositive =>
      obtain rfl := Except.ok.inj h
      have hzero : block.header.height.toNat = 0 := by
        rw [gt_iff_lt, UInt64.lt_iff_toNat_lt] at hpositive
        have : (0 : UInt64).toNat = 0 := rfl
        omega
      refine ⟨⟨fun i b hb => (hknown i b hb).1, fun i b hb => ?_, hlinked, List.cons_ne_nil _ _⟩, [], rfl⟩
      have := (hknown i b hb).2
      omega

/-- `knownChainLocked` returns the path to the block. -/
theorem knownChain_path {n : LabNode} (htree : Tree headers n.knownBlocks) {chain : List Block}
    (h : n.knownChain blockHash = .ok chain) :
    BlockPath n.knownBlocks chain ∧ n.knownBlocks.lookup blockHash = some (chain.getLastD default) := by
  simp only [LabNode.knownChain, bind_ok, require_ok] at h
  obtain ⟨block, hblock, h⟩ := h
  have hknown : ∀ (i : Nat) b, [block][i]? = some b →
      n.knownBlocks.lookup b.hash = some b ∧ b.header.height.toNat = block.header.height.toNat + i := by
    intro i b hb
    cases i with
    | zero =>
      obtain rfl := Option.some.inj hb
      exact ⟨(htree.keyed _ _ hblock).symm ▸ hblock, rfl⟩
    | succ i => cases hb
  have hlinked : ∀ (i : Nat) p b, [block][i]? = some p → [block][i + 1]? = some b →
      b.header.parentHash = p.hash := by
    intro i p b _ hb
    cases hb
  obtain ⟨hpath, below, rfl⟩ := knownAncestors_path htree _ h hknown hlinked
  refine ⟨hpath, ?_⟩
  rw [List.getLastD_concat]
  exact hblock

end Trees

end ChainLab.Node
