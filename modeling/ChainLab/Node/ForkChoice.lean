import ChainLab.Crypto.Checksum
import ChainLab.Types.Block

/-! Fork choice after a finality lock: which known blocks descend from the locked one, and which of them the
node follows. -/

namespace ChainLab.Node

open ChainLab.Lib ChainLab.Types ChainLab.Crypto

/-- `finalityLock`. -/
structure FinalityLock where
  height : UInt64
  blockHash : String
  deriving DecidableEq, Inhabited

section Choice

variable [Primitives]

/-- The loop of `knownBlockDescendsFrom`. A parent one below its block is below it, so the walk ends. -/
def walkBack (known : GoMap String Block) (checkpoint : FinalityLock) (block : Block) : Bool :=
  if _habove : block.header.height > checkpoint.height then
    match known.lookup block.header.parentHash with
    | none => false
    | some parent =>
      if _hlink : parent.header.height + 1 ≠ block.header.height then false
      else walkBack known checkpoint parent
  else block.hash = checkpoint.blockHash
termination_by block.header.height.toNat
decreasing_by
  have hnext := congrArg UInt64.toNat (not_not.mp _hlink)
  have hbound := parent.header.height.toNat_lt
  rw [gt_iff_lt, UInt64.lt_iff_toNat_lt] at _habove
  rw [UInt64.toNat_add] at hnext
  have hone : (1 : UInt64).toNat = 1 := rfl
  omega

/-- `knownBlockDescendsFrom`. -/
def knownBlockDescendsFrom (known : GoMap String Block) (blockHash : String) (checkpoint : FinalityLock) : Bool :=
  match known.lookup blockHash with
  | none => false
  | some block => if block.header.height < checkpoint.height then false else walkBack known checkpoint block

/-- One round of the loop of `highestKnownDescendantLocked`. -/
def preferKnownBlock (known : GoMap String Block) (currentHeadHash : String) (lock : FinalityLock)
    (best : FinalityLock) (blockHash : String) : FinalityLock :=
  if !knownBlockDescendsFrom known blockHash lock then best
  else
    let block := GoMap.get known blockHash
    if block.header.height > best.height ∨
        block.header.height = best.height ∧ best.blockHash ≠ currentHeadHash ∧ blockHash < best.blockHash then
      ⟨block.header.height, blockHash⟩
    else best

/-- `highestKnownDescendantLocked`, for the last of the node's blocks, its known blocks, and the order in which
they are visited. -/
def highestKnownDescendantLocked (head : Block) (known : GoMap String Block) (order : List String)
    (lock : FinalityLock) : String :=
  let start : FinalityLock :=
    if knownBlockDescendsFrom known head.hash lock then ⟨head.header.height, head.hash⟩ else lock
  (order.foldl (preferKnownBlock known head.hash lock) start).blockHash

/-! ### Ancestry -/

/-- A known block and its parent, which is known too. -/
def ParentOf (known : GoMap String Block) (child parent : String) : Prop :=
  ∃ block, known.lookup child = some block ∧ block.header.parentHash = parent ∧ parent ∈ known

/-- A known block that reaches another one over its parents. -/
def DescendsFrom (known : GoMap String Block) (blockHash ancestor : String) : Prop :=
  blockHash ∈ known ∧ Relation.ReflTransGen (ParentOf known) blockHash ancestor

/-- The height of a known block. -/
def heightOf (known : GoMap String Block) (blockHash : String) : Nat :=
  (GoMap.get known blockHash).header.height.toNat

/-- Known blocks are stored under their hashes. -/
def KeyedByHash (known : GoMap String Block) : Prop :=
  ∀ blockHash block, known.lookup blockHash = some block → block.hash = blockHash

/-- Parents are lower than their children. -/
def DecreasingLinks (known : GoMap String Block) : Prop :=
  ∀ child parent, ParentOf known child parent → heightOf known parent < heightOf known child

/-- Parents are one lower than their children. -/
def ConsecutiveLinks (known : GoMap String Block) : Prop :=
  ∀ child parent, ParentOf known child parent → heightOf known parent + 1 = heightOf known child

/-- The locked block is a known one, of the height of the lock. -/
def LockKnown (known : GoMap String Block) (lock : FinalityLock) : Prop :=
  lock.blockHash ∈ known ∧ heightOf known lock.blockHash = lock.height.toNat

/-- An order in which every known block is visited once. -/
def Enumerates (order : List String) (known : GoMap String Block) : Prop :=
  order.Nodup ∧ ∀ blockHash, blockHash ∈ order ↔ blockHash ∈ known

variable {known : GoMap String Block} {lock : FinalityLock} {blockHash : String} {block : Block}

omit [Primitives] in
theorem get_of_lookup (h : known.lookup blockHash = some block) : GoMap.get known blockHash = block := by
  rw [GoMap.get, h]
  rfl

omit [Primitives] in
theorem DescendsFrom.height_le (hlinks : ConsecutiveLinks known) {ancestor : String}
    (h : DescendsFrom known blockHash ancestor) : heightOf known ancestor ≤ heightOf known blockHash := by
  obtain ⟨-, hpath⟩ := h
  induction hpath with
  | refl => exact le_rfl
  | tail hpath hlink ih =>
    have := hlinks _ _ hlink
    omega

omit [Primitives] in
theorem heightOf_of_lookup (h : known.lookup blockHash = some block) :
    heightOf known blockHash = block.header.height.toNat := by
  rw [heightOf, get_of_lookup h]

omit [Primitives] in
theorem mem_of_lookup (h : known.lookup blockHash = some block) : blockHash ∈ known := by
  rw [← Finmap.lookup_isSome, h, Option.isSome_some]

omit [Primitives] in
/-- Over its first link, a block descends from what its parent descends from. -/
theorem descendsFrom_iff_parent {ancestor parentHash : String} {parent : Block}
    (hblock : known.lookup blockHash = some block) (hparentHash : block.header.parentHash = parentHash)
    (hparent : known.lookup parentHash = some parent) (hne : blockHash ≠ ancestor) :
    DescendsFrom known blockHash ancestor ↔ DescendsFrom known parentHash ancestor := by
  constructor
  · rintro ⟨-, hpath⟩
    rcases hpath.cases_head with rfl | ⟨next, ⟨block', hblock', hnext, -⟩, hrest⟩
    · exact absurd rfl hne
    · obtain rfl := Option.some.inj (hblock.symm.trans hblock')
      rw [← hparentHash, hnext]
      rw [← hparentHash, hnext] at hparent
      exact ⟨mem_of_lookup hparent, hrest⟩
  · rintro ⟨hmem, hpath⟩
    exact ⟨mem_of_lookup hblock, hpath.head ⟨block, hblock, hparentHash, hmem⟩⟩

/-- The walk from a known block at or above the lock ends at the lock exactly if the block descends from it. -/
theorem walkBack_iff (hkeyed : KeyedByHash known) (hlinks : ConsecutiveLinks known) (hlock : LockKnown known lock) :
    ∀ (n : Nat) (block : Block) (blockHash : String), block.header.height.toNat = n →
      known.lookup blockHash = some block → lock.height.toNat ≤ n →
      (walkBack known lock block = true ↔ DescendsFrom known blockHash lock.blockHash) := by
  intro n
  induction n using Nat.strong_induction_on with
  | _ n ih =>
    intro block blockHash hn hblock hle
    have hheight := heightOf_of_lookup hblock
    rw [walkBack]
    by_cases habove : block.header.height > lock.height
    · rw [dif_pos habove]
      rw [gt_iff_lt, UInt64.lt_iff_toNat_lt] at habove
      have hne : blockHash ≠ lock.blockHash := by
        rintro rfl
        have := hlock.2
        omega
      cases hparent : known.lookup block.header.parentHash with
      | none =>
        refine iff_of_false (by simp) ?_
        rintro ⟨-, hpath⟩
        rcases hpath.cases_head with rfl | ⟨next, ⟨block', hblock', rfl, hmem⟩, -⟩
        · exact hne rfl
        · obtain rfl := Option.some.inj (hblock.symm.trans hblock')
          rw [← Finmap.lookup_isSome, hparent] at hmem
          cases hmem
      | some parent =>
        have hlink := hlinks blockHash block.header.parentHash ⟨block, hblock, rfl, mem_of_lookup hparent⟩
        rw [hheight, heightOf_of_lookup hparent] at hlink
        have hbound := block.header.height.toNat_lt
        have hone : (1 : UInt64).toNat = 1 := rfl
        have hnext : parent.header.height + 1 = block.header.height := by
          rw [← UInt64.toNat_inj, toNat_add_of_fits (by omega), hone, hlink]
        dsimp only
        rw [dif_neg (not_not.mpr hnext), descendsFrom_iff_parent hblock rfl hparent hne]
        exact ih _ (by omega) parent block.header.parentHash rfl hparent (by omega)
    · rw [dif_neg habove, decide_eq_true_eq]
      rw [gt_iff_lt, UInt64.lt_iff_toNat_lt] at habove
      constructor
      · intro hhash
        rw [hkeyed blockHash block hblock] at hhash
        rw [← hhash]
        exact ⟨mem_of_lookup hblock, .refl⟩
      · rintro ⟨-, hpath⟩
        rcases hpath.cases_head with rfl | ⟨next, hlink, hrest⟩
        · exact hkeyed _ _ hblock
        · obtain ⟨-, -, -, hmem⟩ := id hlink
          have hbelow := DescendsFrom.height_le hlinks ⟨hmem, hrest⟩
          have hnext := hlinks _ _ hlink
          have := hlock.2
          omega

/-- `knownBlockDescendsFrom` decides ancestry. -/
theorem knownBlockDescendsFrom_iff (hkeyed : KeyedByHash known) (hlinks : ConsecutiveLinks known)
    (hlock : LockKnown known lock) :
    knownBlockDescendsFrom known blockHash lock = true ↔ DescendsFrom known blockHash lock.blockHash := by
  unfold knownBlockDescendsFrom
  cases hblock : known.lookup blockHash with
  | none =>
    refine iff_of_false (by simp) fun h => ?_
    have hmem := h.1
    rw [← Finmap.lookup_isSome, hblock] at hmem
    cases hmem
  | some block =>
    have hheight := heightOf_of_lookup hblock
    by_cases hlow : block.header.height < lock.height
    · dsimp only
      rw [if_pos hlow]
      refine iff_of_false (by simp) fun h => ?_
      have hbelow := h.height_le hlinks
      rw [UInt64.lt_iff_toNat_lt] at hlow
      have := hlock.2
      omega
    · dsimp only
      rw [if_neg hlow]
      rw [UInt64.lt_iff_toNat_lt] at hlow
      exact walkBack_iff hkeyed hlinks hlock _ block blockHash rfl hblock (by omega)

/-! ### The choice -/

/-- A candidate that the loop may hold: a descendant of the lock, with its height. -/
structure Candidate (known : GoMap String Block) (lock best : FinalityLock) : Prop where
  descends : knownBlockDescendsFrom known best.blockHash lock = true
  height : heightOf known best.blockHash = best.height.toNat

/-- A block that another one does not displace. -/
def Preferred (known : GoMap String Block) (headHash best other : String) : Prop :=
  heightOf known other < heightOf known best ∨
    heightOf known other = heightOf known best ∧ (best = headHash ∨ best ≤ other)

/-- What the loop may hold after having held a block: it gives up a block for a higher one, and one that is not
the head for a smaller hash. -/
def Succeeds (known : GoMap String Block) (headHash next best : String) : Prop :=
  next = best ∨ heightOf known best < heightOf known next ∨
    heightOf known best = heightOf known next ∧ best ≠ headHash ∧ next < best

omit [Primitives] in
theorem Succeeds.trans {headHash last next best : String} (h : Succeeds known headHash last next)
    (h' : Succeeds known headHash next best) : Succeeds known headHash last best := by
  rcases h' with rfl | hhigher | ⟨heq, hnotHead, hless⟩
  · exact h
  · rcases h with rfl | hhigher' | ⟨heq', -, -⟩
    · exact .inr (.inl hhigher)
    · exact .inr (.inl (by omega))
    · exact .inr (.inl (by omega))
  · rcases h with rfl | hhigher' | ⟨heq', -, hless'⟩
    · exact .inr (.inr ⟨heq, hnotHead, hless⟩)
    · exact .inr (.inl (by omega))
    · exact .inr (.inr ⟨by omega, hnotHead, hless'.trans hless⟩)

omit [Primitives] in
theorem Preferred.succeeds {headHash next best other : String} (h : Preferred known headHash best other)
    (h' : Succeeds known headHash next best) : Preferred known headHash next other := by
  rcases h' with rfl | hhigher | ⟨heq, hnotHead, hless⟩
  · exact h
  · rcases h with hlow | ⟨htie, -⟩
    · exact .inl (by omega)
    · exact .inl (by omega)
  · rcases h with hlow | ⟨htie, hhead | hle⟩
    · exact .inl (by omega)
    · exact absurd hhead hnotHead
    · exact .inr ⟨by omega, .inr (hless.le.trans hle)⟩

/-- One round: the candidate stays one, succeeds the last, and is preferred to the block of the round. -/
theorem preferKnownBlock_spec {headHash : String} {best : FinalityLock} (h : Candidate known lock best)
    (blockHash : String) :
    Candidate known lock (preferKnownBlock known headHash lock best blockHash) ∧
    Succeeds known headHash (preferKnownBlock known headHash lock best blockHash).blockHash best.blockHash ∧
    (knownBlockDescendsFrom known blockHash lock = true →
      Preferred known headHash (preferKnownBlock known headHash lock best blockHash).blockHash blockHash) := by
  unfold preferKnownBlock
  cases hdescends : knownBlockDescendsFrom known blockHash lock with
  | false => exact ⟨h, .inl rfl, fun hfalse => (nomatch hfalse)⟩
  | true =>
    rw [if_neg (by simp)]
    have hbest := h.height
    have hheight : heightOf known blockHash = (GoMap.get known blockHash).header.height.toNat := rfl
    by_cases hwins : (GoMap.get known blockHash).header.height > best.height ∨
        (GoMap.get known blockHash).header.height = best.height ∧ best.blockHash ≠ headHash ∧ blockHash < best.blockHash
    · dsimp only
      rw [if_pos hwins]
      refine ⟨⟨hdescends, rfl⟩, ?_, fun _ => .inr ⟨rfl, .inr le_rfl⟩⟩
      rcases hwins with hhigher | ⟨htie, hnotHead, hless⟩
      · rw [gt_iff_lt, UInt64.lt_iff_toNat_lt] at hhigher
        exact .inr (.inl (by dsimp only; omega))
      · rw [← UInt64.toNat_inj] at htie
        exact .inr (.inr ⟨by dsimp only; omega, hnotHead, hless⟩)
    · dsimp only
      rw [if_neg hwins]
      refine ⟨h, .inl rfl, fun _ => ?_⟩
      rw [not_or, gt_iff_lt, UInt64.lt_iff_toNat_lt, ← UInt64.toNat_inj] at hwins
      rcases Nat.lt_or_ge (heightOf known blockHash) (heightOf known best.blockHash) with hlow | hhigh
      · exact .inl hlow
      · have htie : heightOf known blockHash = heightOf known best.blockHash := by omega
        refine .inr ⟨htie, ?_⟩
        by_contra hneither
        rw [not_or, not_le] at hneither
        exact hwins.2 ⟨by omega, hneither⟩

/-- The whole loop. -/
theorem foldl_preferKnownBlock_spec {headHash : String} (order : List String) :
    ∀ {start : FinalityLock}, Candidate known lock start →
      Candidate known lock (order.foldl (preferKnownBlock known headHash lock) start) ∧
      Succeeds known headHash (order.foldl (preferKnownBlock known headHash lock) start).blockHash start.blockHash ∧
      ∀ blockHash ∈ order, knownBlockDescendsFrom known blockHash lock = true →
        Preferred known headHash (order.foldl (preferKnownBlock known headHash lock) start).blockHash blockHash := by
  induction order with
  | nil => exact fun h => ⟨h, .inl rfl, fun _ hmem => (nomatch hmem)⟩
  | cons first rest ih =>
    intro start hstart
    obtain ⟨hcandidate, hsucceeds, hpreferred⟩ := @preferKnownBlock_spec _ known lock headHash start hstart first
    obtain ⟨hfinal, hlast, hrest⟩ := ih hcandidate
    rw [List.foldl_cons]
    refine ⟨hfinal, hlast.trans hsucceeds, fun blockHash hmem hdescends => ?_⟩
    rcases List.mem_cons.mp hmem with rfl | hmem
    · exact (hpreferred hdescends).succeeds hlast
    · exact hrest blockHash hmem hdescends

/-- What the node follows after a lock: a highest descendant, the head if it is one, and otherwise the one with
the smallest hash. -/
structure Follows (known : GoMap String Block) (head : Block) (lock : FinalityLock) (choice : String) : Prop where
  descends : DescendsFrom known choice lock.blockHash
  highest : ∀ other, DescendsFrom known other lock.blockHash → heightOf known other ≤ heightOf known choice
  keepsHead : DescendsFrom known head.hash lock.blockHash → heightOf known head.hash = heightOf known choice →
    choice = head.hash
  smallest : choice ≠ head.hash → ∀ other, DescendsFrom known other lock.blockHash →
    heightOf known other = heightOf known choice → choice ≤ other

/-- There is only one such block. -/
theorem Follows.unique {head : Block} {choice choice' : String} (h : Follows known head lock choice)
    (h' : Follows known head lock choice') : choice = choice' := by
  have htie : heightOf known choice = heightOf known choice' :=
    le_antisymm (h'.highest _ h.descends) (h.highest _ h'.descends)
  by_cases hhead : choice = head.hash
  · subst hhead
    exact (h'.keepsHead h.descends htie).symm
  by_cases hhead' : choice' = head.hash
  · subst hhead'
    exact h.keepsHead h'.descends htie.symm
  · exact le_antisymm (h.smallest hhead _ h'.descends htie.symm) (h'.smallest hhead' _ h.descends htie)

theorem highestKnownDescendantLocked_follows (hkeyed : KeyedByHash known) (hlinks : ConsecutiveLinks known)
    (hlock : LockKnown known lock) {head : Block}
    (hhead : ∀ block, known.lookup head.hash = some block → block.header = head.header) {order : List String}
    (horder : Enumerates order known) : Follows known head lock (highestKnownDescendantLocked head known order lock) := by
  have hdecides (blockHash : String) :
      knownBlockDescendsFrom known blockHash lock = true ↔ DescendsFrom known blockHash lock.blockHash :=
    knownBlockDescendsFrom_iff hkeyed hlinks hlock
  have hheadHeight (hmem : head.hash ∈ known) : heightOf known head.hash = head.header.height.toNat := by
    obtain ⟨block, hblock⟩ := Option.isSome_iff_exists.mp (Finmap.lookup_isSome.mpr hmem)
    rw [heightOf_of_lookup hblock, hhead block hblock]
  have hstart : Candidate known lock
      (if knownBlockDescendsFrom known head.hash lock then ⟨head.header.height, head.hash⟩ else lock) := by
    by_cases hdescends : knownBlockDescendsFrom known head.hash lock = true
    · rw [if_pos hdescends]
      exact ⟨hdescends, hheadHeight ((hdecides _).mp hdescends).1⟩
    · rw [if_neg hdescends]
      exact ⟨(hdecides _).mpr ⟨hlock.1, .refl⟩, hlock.2⟩
  obtain ⟨hcandidate, hsucceeds, hpreferred⟩ := @foldl_preferKnownBlock_spec _ known lock head.hash order _ hstart
  have hall (other : String) (hother : DescendsFrom known other lock.blockHash) :
      Preferred known head.hash (highestKnownDescendantLocked head known order lock) other :=
    hpreferred other ((horder.2 other).mpr hother.1) ((hdecides other).mpr hother)
  refine ⟨(hdecides _).mp hcandidate.descends, fun other hother => ?_, fun hdescends htie => ?_,
    fun hnotHead other hother htie => ?_⟩
  · rcases hall other hother with hlow | ⟨htie, -⟩
    · exact hlow.le
    · exact htie.le
  · rw [if_pos ((hdecides _).mpr hdescends)] at hsucceeds
    have hnext : highestKnownDescendantLocked head known order lock =
        (order.foldl (preferKnownBlock known head.hash lock) ⟨head.header.height, head.hash⟩).blockHash := by
      unfold highestKnownDescendantLocked
      dsimp only
      rw [if_pos ((hdecides _).mpr hdescends)]
    rw [← hnext] at hsucceeds
    rcases hsucceeds with heq | hhigher | ⟨-, hne, -⟩
    · exact heq
    · dsimp only at hhigher
      omega
    · exact absurd rfl hne
  · rcases hall other hother with hlow | ⟨-, heq | hle⟩
    · omega
    · exact absurd heq hnotHead
    · exact hle

/-- Fork choice is ancestry and the order of the descendants, whatever the order of the visits. That the walk
ends is in the definition of it. -/
theorem forkChoice_exact (known : GoMap String Block) (hkeyed : KeyedByHash known) (hlinks : ConsecutiveLinks known)
    (lock : FinalityLock) (hlock : LockKnown known lock) (head : Block)
    (hhead : ∀ block, known.lookup head.hash = some block → block.header = head.header) :
    (∀ blockHash,
      knownBlockDescendsFrom known blockHash lock = true ↔ DescendsFrom known blockHash lock.blockHash) ∧
    (∀ order, Enumerates order known →
      Follows known head lock (highestKnownDescendantLocked head known order lock)) ∧
    ∀ order order', Enumerates order known → Enumerates order' known →
      highestKnownDescendantLocked head known order lock = highestKnownDescendantLocked head known order' lock := by
  have hfollows (order : List String) (horder : Enumerates order known) :=
    highestKnownDescendantLocked_follows hkeyed hlinks hlock hhead horder
  exact ⟨fun _ => knownBlockDescendsFrom_iff hkeyed hlinks hlock, hfollows,
    fun order order' horder horder' => (hfollows order horder).unique (hfollows order' horder')⟩

/-! ### Given blocks -/

section Given

/-- The given blocks, each under its hash. -/
def knownBlocks (blocks : List Block) : GoMap String Block := GoMap.ofList (blocks.map fun block => (block.hash, block))

variable {blocks : List Block}

theorem lookup_knownBlocks (h : (knownBlocks blocks).lookup blockHash = some block) :
    block ∈ blocks ∧ block.hash = blockHash := by
  have hmem : (blockHash, block) ∈ blocks.map fun block => (block.hash, block) := by
    revert h
    unfold knownBlocks GoMap.ofList
    refine List.foldlRecOn (motive := fun m : GoMap String Block => m.lookup blockHash = some block → _) _ _ (by simp)
      fun m hm entry hentry => ?_
    rw [GoMap.lookup_insert_if]
    split
    · next heq =>
      rintro ⟨⟩
      rwa [heq]
    · exact hm
  obtain ⟨given, hgiven, heq⟩ := List.mem_map.mp hmem
  obtain ⟨rfl, rfl⟩ := Prod.mk.inj heq
  exact ⟨hgiven, rfl⟩

theorem keyedByHash_knownBlocks : KeyedByHash (knownBlocks blocks) :=
  fun _ _ h => (lookup_knownBlocks h).2

theorem parentOf_knownBlocks {child parent : String} (h : ParentOf (knownBlocks blocks) child parent) :
    ∃ block ∈ blocks, block.hash = child ∧ block.header.parentHash = parent ∧ parent ∈ knownBlocks blocks := by
  obtain ⟨block, hblock, hparent⟩ := h
  exact ⟨block, (lookup_knownBlocks hblock).1, (lookup_knownBlocks hblock).2, hparent⟩

theorem enumerates_knownBlocks {order : List String} (hnodup : order.Nodup)
    (hall : ∀ block ∈ blocks, block.hash ∈ order) (hknown : ∀ blockHash ∈ order, blockHash ∈ knownBlocks blocks) :
    Enumerates order (knownBlocks blocks) := by
  refine ⟨hnodup, fun blockHash => ⟨hknown blockHash, fun hmem => ?_⟩⟩
  obtain ⟨block, hblock⟩ := Finmap.mem_iff.mp hmem
  obtain ⟨hgiven, rfl⟩ := lookup_knownBlocks hblock
  exact hall block hgiven

end Given

end Choice

/-- Primitives whose hash is the length of what is hashed. -/
@[reducible] def lengthPrimitives : Primitives :=
  { constantPrimitives with keccak := fun data => ⟨List.replicate 31 0 ++ [UInt8.ofNat data.length], rfl⟩ }

/-- A known child two above its locked parent is a descendant by its parent link and is not found to be one. -/
theorem knownBlockDescendsFrom_gap : letI := lengthPrimitives
    let locked : Block := { header := { chainID := "lab", height := 9 } }
    let child : Block := { header := { chainID := "lab", height := 11, parentHash := locked.hash } }
    let known := GoMap.ofList [(locked.hash, locked), (child.hash, child)]
    let lock : FinalityLock := ⟨9, locked.hash⟩
    KeyedByHash known ∧ DecreasingLinks known ∧ LockKnown known lock ∧
      DescendsFrom known child.hash lock.blockHash ∧ knownBlockDescendsFrom known child.hash lock = false := by
  let _ := lengthPrimitives
  intro locked child known lock
  have hchild : known.lookup child.hash = some child := by decide +kernel
  have hlocked : known.lookup locked.hash = some locked := by decide +kernel
  have hknown : known = knownBlocks [locked, child] := rfl
  refine ⟨hknown ▸ keyedByHash_knownBlocks, ?_, ⟨mem_of_lookup hlocked, heightOf_of_lookup hlocked⟩,
    ⟨mem_of_lookup hchild, .single ⟨child, hchild, rfl, mem_of_lookup hlocked⟩⟩, ?_⟩
  · have hlinks : ∀ block ∈ [locked, child], block.header.parentHash ∈ known →
        heightOf known block.header.parentHash < heightOf known block.hash := by decide +kernel
    intro c p hparent
    obtain ⟨block, hblock, rfl, rfl, hmem⟩ := parentOf_knownBlocks (hknown ▸ hparent)
    exact hlinks block hblock hmem
  · have hlow : ¬child.header.height < lock.height := by decide
    have habove : child.header.height > lock.height := by decide
    have hgap : locked.header.height + 1 ≠ child.header.height := by decide
    have hparent : known.lookup child.header.parentHash = some locked := hlocked
    rw [knownBlockDescendsFrom, hchild]
    dsimp only
    rw [if_neg hlow, walkBack, dif_pos habove, hparent]
    dsimp only
    rw [dif_pos hgap]

/-! ### A tie -/

section Tie

attribute [local instance] checksumPrimitives

def lockedBlock : Block := { header := { chainID := "lab", height := 9 } }

/-- The locked block has two children, and the head is one that does not descend from it. -/
def rivalBlock (timeUnix : Int64) : Block :=
  { header := { chainID := "lab", height := 10, timeUnix, parentHash := lockedBlock.hash } }

def strayHead : Block := { header := { chainID := "lab", height := 12, parentHash := "0x" } }

def tied : List Block := [lockedBlock, rivalBlock 1, rivalBlock 2, strayHead]

/-- Whichever of the two is visited first, the one with the smaller hash is chosen. -/
theorem forkChoice_exact_tie :
    let known := knownBlocks tied
    let lock : FinalityLock := ⟨9, lockedBlock.hash⟩
    let order := tied.map Block.hash
    heightOf known (rivalBlock 1).hash = heightOf known (rivalBlock 2).hash ∧
      (rivalBlock 1).hash ≠ (rivalBlock 2).hash ∧
      Follows known strayHead lock (highestKnownDescendantLocked strayHead known order lock) ∧
      highestKnownDescendantLocked strayHead known order lock =
        highestKnownDescendantLocked strayHead known order.reverse lock := by
  intro known lock order
  have hlinks : ConsecutiveLinks known := by
    have hlinks : ∀ block ∈ tied, block.header.parentHash ∈ known →
        heightOf known block.header.parentHash + 1 = heightOf known block.hash := by decide +kernel
    intro c p hparent
    obtain ⟨block, hblock, rfl, rfl, hmem⟩ := parentOf_knownBlocks hparent
    exact hlinks block hblock hmem
  have hlock : LockKnown known lock := ⟨by decide +kernel, by decide +kernel⟩
  have hhead : ∀ block, known.lookup strayHead.hash = some block → block.header = strayHead.header := by
    have hstored : known.lookup strayHead.hash = some strayHead := by decide +kernel
    intro block hblock
    rw [Option.some.inj (hblock.symm.trans hstored)]
  have horder : Enumerates order known :=
    enumerates_knownBlocks (by decide +kernel) (by decide +kernel) (by decide +kernel)
  have hreverse : Enumerates order.reverse known :=
    ⟨List.nodup_reverse.mpr horder.1, fun blockHash => List.mem_reverse.trans (horder.2 blockHash)⟩
  obtain ⟨-, hfollows, hsame⟩ := forkChoice_exact known keyedByHash_knownBlocks hlinks lock hlock strayHead hhead
  exact ⟨by decide +kernel, by decide +kernel, hfollows _ horder, hsame _ _ horder hreverse⟩

end Tie

end ChainLab.Node
