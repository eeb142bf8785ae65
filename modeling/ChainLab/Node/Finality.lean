import ChainLab.Node.Runs

/-! Finality over whole runs: the lock only moves to descendants, it is the highest certified block of the canonical
chain, and an import or a vote that is refused takes nothing with it. -/

namespace ChainLab.Node

open ChainLab.Lib ChainLab.Types ChainLab.Crypto ChainLab.State ChainLab.Core ChainLab.Consensus
open Relation (ReflTransGen)

section Finality

variable [Primitives] {setup : Setup} {world : World} {n n' : LabNode} {headers : List BlockHeader} {block : Block}
  {history later : History}

/-! ### The lock -/

omit [Primitives] in
theorem Extends.trans {known known' known'' : GoMap String Block} (h : Extends known known')
    (h' : Extends known' known'') : Extends known known'' := by
  intro blockHash block hblock
  obtain ⟨block', hblock', hheader⟩ := h _ _ hblock
  obtain ⟨block'', hblock'', hheader'⟩ := h' _ _ hblock'
  exact ⟨block'', hblock'', hheader'.trans hheader⟩

omit [Primitives] in
theorem LabNode.Advanced.trans {n'' : LabNode} (h : n.Advanced n') (h' : n'.Advanced n'') : n.Advanced n'' where
  height := h.height.trans h'.height
  descends := h'.descends.trans (h'.extends'.descends h.descends)
  extends' := h.extends'.trans h'.extends'

/-- Over a run the lock only moves to descendants. -/
theorem run_advanced (hr : setup.runtime.KeepsFunds) (h : history.node.Sound setup history.headers)
    (hrun : ReflTransGen (Called setup) history later) (hfree : NoCollision later.headers) :
    history.node.Advanced later.node := by
  induction hrun with
  | refl => exact h.chain.stays
  | tail hrun hcalled ih =>
    cases hcalled with
    | call world call visits =>
      have hsound := run_sound hr h hrun hfree.of_append
      exact (ih hfree.of_append).trans (call_kept hr hsound call visits hfree).2

/-- The locked block is canonical, and it is the highest certified one of the canonical chain. -/
theorem LabNode.OnChain.lock_highest (h : n.OnChain headers) :
    ∃ block, n.blocks[n.finalityLock.height.toNat]? = some block ∧ block.hash = n.finalityLock.blockHash ∧
      (n.finalityLock.height ≠ 0 → block.finalityCertificate ≠ none ∧
        ∀ other ∈ n.blocks, other.finalityCertificate ≠ none → other.header.height ≤ block.header.height) := by
  obtain ⟨block, hblock, hhash⟩ := h.locked
  refine ⟨block, hblock, hhash, fun hpositive => ⟨?_, fun other hmem hcertified => ?_⟩⟩
  · exact h.lockCertified hpositive block (hhash ▸ h.path.known _ _ hblock)
  · rw [UInt64.le_iff_toNat_le, h.path.height _ _ hblock]
    exact h.certified _ other (h.path.mem_known hmem) hcertified

/-! ### Conflicting blocks -/

/-- The block is neither above nor below the locked one. -/
def Conflicts (n : LabNode) (block : Block) : Prop :=
  ¬DescendsFrom (n.knownBlocks.insert block.hash block) block.hash n.finalityLock.blockHash ∧
    ¬DescendsFrom (n.knownBlocks.insert block.hash block) n.finalityLock.blockHash block.hash

theorem extends_swap {installed : Block} (hheader : installed.header = block.header) :
    Extends (n.knownBlocks.insert installed.hash installed) (n.knownBlocks.insert block.hash block) := by
  intro blockHash found hfound
  rw [GoMap.lookup_insert_if, hash_congr hheader] at hfound
  rw [GoMap.lookup_insert_if]
  split at hfound
  · next heq =>
    rw [if_pos heq]
    exact ⟨block, rfl, by rw [← Option.some.inj hfound, hheader]⟩
  · next hne =>
    rw [if_neg hne]
    exact ⟨found, hfound, rfl⟩

/-- A block that is installed does not conflict with the lock. -/
theorem descends_of_installed (h : n.OnChain headers) (hfree : NoCollision headers) (hplaced : Placed headers n block)
    (hcompatible : (n.addKnown block).blockCompatibleWithFinalityLock block.hash = true) :
    DescendsFrom (n.knownBlocks.insert block.hash block) block.hash n.finalityLock.blockHash ∨
      DescendsFrom (n.knownBlocks.insert block.hash block) n.finalityLock.blockHash block.hash := by
  obtain ⟨parent, hparent, hheight⟩ := hplaced.parent
  obtain ⟨htree, hextends⟩ := h.tree.insert hfree hplaced.presented hparent hheight
  by_cases hle : n.finalityLock.height.toNat ≤ block.header.height.toNat
  · exact .inl (descends_of_compatible h htree hextends hcompatible hle)
  · have hlookup : (n.knownBlocks.insert block.hash block).lookup block.hash = some block := by
      rw [GoMap.lookup_insert_if, if_pos rfl]
    have hbelow : ¬block.header.height ≥ n.finalityLock.height := fun hge => hle (UInt64.le_iff_toNat_le.mp hge)
    unfold LabNode.blockCompatibleWithFinalityLock at hcompatible
    rw [show (n.addKnown block).knownBlocks.lookup block.hash = some block from hlookup] at hcompatible
    dsimp only at hcompatible
    rw [show (n.addKnown block).finalityLock = n.finalityLock from rfl, if_neg hbelow] at hcompatible
    have hknown : LockKnown (n.knownBlocks.insert block.hash block) ⟨block.header.height, block.hash⟩ :=
      ⟨mem_of_lookup hlookup, heightOf_of_lookup hlookup⟩
    exact .inr ((knownBlockDescendsFrom_iff htree.keyed htree.links hknown).mp hcompatible)

/-- A block that conflicts with the lock changes neither the canonical chain nor the lock, certified or not. -/
theorem importBlock_conflicting (h : n.OnChain headers) (hfree : NoCollision (block.header :: headers))
    (hconflicts : Conflicts n block) :
    (importBlock setup world block n).2.blocks = n.blocks ∧
      (importBlock setup world block n).2.finalityLock = n.finalityLock := by
  have hmore : n.OnChain (block.header :: headers) := h.mono (List.subset_cons_self _ _)
  refine (importBlock_spec block).leaves (R := fun s => s.blocks = n.blocks ∧ s.finalityLock = n.finalityLock) rfl
    (fun _ s hs => ?_) fun _ s hs => ?_
  · cases hs with
    | nothing => exact ⟨rfl, rfl⟩
    | @installed installed parent parentState after _ hheader _ _ hattached _ hlocated _ hvalid hchange =>
      have hplaced : Placed (block.header :: headers) n installed :=
        placed_of_import List.mem_cons_self hheader hattached hlocated hvalid
      have hswap := @extends_swap _ n block installed hheader
      have hhash : installed.hash = block.hash := hash_congr hheader
      rcases descends_of_installed hmore hfree hplaced hchange.compatible with hdescends | hdescends
      · have hdescends' := hswap.descends hdescends
        rw [hhash] at hdescends'
        exact absurd hdescends' hconflicts.1
      · have hdescends' := hswap.descends hdescends
        rw [hhash] at hdescends'
        exact absurd hdescends' hconflicts.2
  · obtain ⟨heights, hstalled, -⟩ := hs
    exact hstalled.chain.2

/-- Over every run: the height of the lock never falls and each lock is a descendant of every earlier one; the locked
block is canonical and, once there is one above the genesis block, it is the highest certified block of the canonical
chain; and a block that conflicts with the lock changes neither. -/
theorem finality_lock_safe (hreach : Reachable setup history) (hrun : ReflTransGen (Called setup) history later)
    (hfree : NoCollision later.headers) :
    history.node.finalityLock.height ≤ later.node.finalityLock.height ∧
    DescendsFrom later.node.knownBlocks later.node.finalityLock.blockHash history.node.finalityLock.blockHash ∧
    (∃ block, later.node.blocks[later.node.finalityLock.height.toNat]? = some block ∧
      block.hash = later.node.finalityLock.blockHash ∧
      (later.node.finalityLock.height ≠ 0 → block.finalityCertificate ≠ none ∧
        ∀ other ∈ later.node.blocks, other.finalityCertificate ≠ none → other.header.height ≤ block.header.height)) ∧
    ∀ world block, NoCollision (block.header :: later.headers) → Conflicts later.node block →
      (importBlock setup world block later.node).2.blocks = later.node.blocks ∧
        (importBlock setup world block later.node).2.finalityLock = later.node.finalityLock := by
  obtain ⟨hsound, hr⟩ := hreach.sound (run_free hrun hfree)
  have hadvanced := run_advanced hr hsound hrun hfree
  have hlater := run_sound hr hsound hrun hfree
  exact ⟨UInt64.le_iff_toNat_le.mpr hadvanced.height, hadvanced.descends, hlater.chain.lock_highest,
    fun world block hmore hconflicts => importBlock_conflicting hlater.chain hmore hconflicts⟩

/-! ### Refused imports and votes -/

omit [Primitives] in
theorem mem_finalityEvidenceList {key : String} {evidence : FinalityEquivocationEvidence}
    (h : n.finalityEvidence.lookup key = some evidence) : evidence ∈ n.finalityEvidenceList := by
  rw [LabNode.finalityEvidenceList, List.mem_mergeSort]
  refine List.mem_map.mpr ⟨key, GoMap.mem_sortedKeys.mpr (Finmap.mem_iff.mpr ⟨evidence, h⟩), ?_⟩
  rw [GoMap.get, h]
  rfl

/-- The evidence and the pool of the node are in its file. -/
def Persisted (n : LabNode) (evidence : FinalityEquivocationEvidence) : Prop :=
  ∃ snapshot, n.chainFile = some snapshot ∧ evidence ∈ snapshot.finalityEvidence ∧
    snapshot.pending = n.pool.mempool ∧ snapshot.queued = n.pool.queued

/-- What a vote that is refused for an equivocation leaves: the validator of the vote signed another block of the height
before, the error reports it, there was no evidence of it yet, and the node with the evidence, and with a slash if one
could be submitted, was persisted without an error. A node with a data directory has both in its file; nothing else
differs but the halt error and what concerns the disk. -/
def EquivocationKept (setup : Setup) (world : World) (n : LabNode) (vote : FinalitySignature) (err : GoError)
    (n' : LabNode) : Prop :=
  ∃ block validators existing noted persisted, matchFinalityVote setup n vote = .ok (block, validators) ∧
    (GoMap.get n.finalityVoteIndex block.header.height).lookup vote.validator = some existing ∧
    existing.blockHash ≠ block.hash ∧ ReportsEquivocation block vote existing err ∧
    Evidenced setup n block vote existing noted ∧ persist setup world noted = (.ok (), persisted) ∧
    Halts persisted n' ∧ Stalled noted n' ∧ (setup.persistent = true → Persisted n' (evidenceOf block vote existing))

theorem VoteRefused.kept {vote : FinalitySignature} {err : GoError} (h : VoteRefused setup world n vote err n') :
    Stalled n n' ∨ EquivocationKept setup world n vote err n' := by
  rcases h with h | ⟨block, validators, existing, noted, persisted, hmatched, hindexed, hother, hreports, hevidenced,
    hpersist, hhalts⟩
  · exact .inl h
  · have hstalled : Stalled noted persisted := by
      have hkept := @persist_keeps setup world noted _ noted (.refl noted)
      rwa [hpersist] at hkept
    refine .inr ⟨block, validators, existing, noted, persisted, hmatched, hindexed, hother, hreports, hevidenced, hpersist,
      hhalts, hstalled.trans hhalts.stalled, fun hpersistent => ?_⟩
    have hfile := chainFile_persist hpersistent hpersist
    obtain ⟨-, pool, -, halt, rfl⟩ := hevidenced
    obtain ⟨halt', generation, file, rfl⟩ := hstalled
    obtain ⟨halt'', rfl⟩ := hhalts
    have hlookup : (n.finalityEvidence.insert (finalityEvidenceKey block.header.height vote.validator)
        (evidenceOf block vote existing)).lookup (finalityEvidenceKey block.header.height vote.validator) =
          some (evidenceOf block vote existing) := by
      rw [GoMap.lookup_insert_if, if_pos rfl]
    exact ⟨_, hfile, mem_finalityEvidenceList hlookup, rfl, rfl⟩

/-- An import or a vote that returns an error leaves every field of the node but the halt error and what concerns
the disk as it was; the exception is a vote that is refused with the error of a new equivocation, whose evidence is
kept. A vote is taken back right because the canonical blocks of a node are known ones. -/
theorem refused_leaves (setup : Setup) (world : World) :
    (∀ (n : LabNode) (block : Block) (err : GoError) (n' : LabNode),
      importBlock setup world block n = (.error err, n') → Unmoved n n') ∧
    (∀ (n : LabNode) (vote : FinalitySignature) (err : GoError) (n' : LabNode),
      (∀ block ∈ n.blocks, block.hash ∈ n.knownBlocks) → submitFinalityVote setup world vote n = (.error err, n') →
      Stalled n n' ∨ EquivocationKept setup world n vote err n') ∧
    ∀ history : History, Reachable setup history → NoCollision history.headers →
      ∀ block ∈ history.node.blocks, block.hash ∈ history.node.knownBlocks := by
  refine ⟨fun n block err n' h => ((importBlock_spec block) n rfl).2 err n' h, fun n vote err n' hknown h => ?_,
    fun history hreach hfree block hmem => ?_⟩
  · exact ((submitFinalityVote_spec hknown vote n rfl).2 err n' h).kept
  · exact mem_of_lookup ((hreach.sound hfree).1.chain.path.mem_known hmem)

end Finality

section Lab

attribute [local instance] checksumPrimitives

theorem finality_lock_safe_lab :
    labProduced.node.finalityLock.height = 0 ∧ labCertified.node.finalityLock.height = 1 ∧
    DescendsFrom labCertified.node.knownBlocks labCertified.node.finalityLock.blockHash
      labProduced.node.finalityLock.blockHash ∧
    ∃ block, labCertified.node.blocks[1]? = some block ∧ block.hash = labCertified.node.finalityLock.blockHash ∧
      block.finalityCertificate ≠ none := by
  obtain ⟨⟨hfree, hbefore, hafter⟩, -⟩ := lab_ran
  obtain ⟨-, hdescends, ⟨block, hblock, hhash, hcertified⟩, -⟩ :=
    finality_lock_safe labProduced_reachable labCertified_called (run_free labPending_called hfree)
  rw [hafter] at hblock hcertified
  exact ⟨hbefore, hafter, hdescends, block, hblock, hhash, (hcertified (by decide)).1⟩

/-- The lab with an empty block, and with a vote of its validator for another block of the height. -/
@[irreducible] def labEquivocated : LabNode :=
  { (labStart.called { now := 5 } .produceBlock).node with
    finalityVoteIndex := (∅ : GoMap UInt64 (GoMap String FinalityVoteRecord)).insert 1
      ((∅ : GoMap String FinalityVoteRecord).insert (keyAddress 1) ⟨keccakHex [], keySignature 1⟩) }

/-- A vote for the block of the node. -/
def labSecondVote : FinalitySignature where
  chainID := "lab"
  height := 1
  blockHash := labEquivocated.head.hash
  validator := keyAddress 1
  signature := keySignature 1

/-- The lab with a data directory. -/
def diskSetup : Setup := { labSetup with persistent := true }

/-- A block of another chain. -/
def foreignBlock : Block := { header := { labStart.node.head.header with chainID := "other" } }

theorem labEquivocated_ran :
    ((submitFinalityVote labSetup {} labSecondVote labEquivocated).1.isOk = false ∧
      GoMap.len (submitFinalityVote labSetup {} labSecondVote labEquivocated).2.finalityEvidence = 1 ∧
      (submitFinalityVote labSetup {} labSecondVote labEquivocated).2.chainFile.isNone = true) ∧
    ((submitFinalityVote diskSetup {} labSecondVote labEquivocated).1.isOk = false ∧
      GoMap.len (submitFinalityVote diskSetup {} labSecondVote labEquivocated).2.finalityEvidence = 1) ∧
    GoMap.len labEquivocated.finalityEvidence = 0 ∧
    (∀ block ∈ labEquivocated.blocks, block.hash ∈ labEquivocated.knownBlocks) ∧
    (importBlock labSetup {} foreignBlock labStart.node).1.isOk = false := by
  decide +kernel

/-- Without a data directory the evidence of a refused vote stays though nothing was written to a disk. -/
theorem equivocation_kept_in_memory : ∃ err n',
    submitFinalityVote labSetup {} labSecondVote labEquivocated = (.error err, n') ∧
      n'.finalityEvidence ≠ labEquivocated.finalityEvidence ∧ n'.chainFile = none := by
  obtain ⟨⟨hrefused, hkept, hfile⟩, -, hbefore, -⟩ := labEquivocated_ran
  generalize submitFinalityVote labSetup {} labSecondVote labEquivocated = outcome at hrefused hkept hfile ⊢
  obtain ⟨err | _, n'⟩ := outcome
  · refine ⟨err, n', rfl, fun hsame => ?_, Option.isNone_iff_eq_none.mp hfile⟩
    rw [hsame, hbefore] at hkept
    cases hkept
  · cases hrefused

/-- A block of another chain is not imported; a second vote at a height is refused, and on a node with a data directory its
evidence is in the file. -/
theorem refused_leaves_lab :
    (∃ err n', importBlock labSetup {} foreignBlock labStart.node = (.error err, n') ∧ Unmoved labStart.node n') ∧
    ∃ err n', submitFinalityVote diskSetup {} labSecondVote labEquivocated = (.error err, n') ∧
      EquivocationKept diskSetup {} labEquivocated labSecondVote err n' := by
  obtain ⟨-, ⟨hrefused, hkept⟩, hbefore, hknown, hforeign⟩ := labEquivocated_ran
  constructor
  · generalize himport : importBlock labSetup {} foreignBlock labStart.node = outcome at hforeign
    obtain ⟨err | _, n'⟩ := outcome
    · exact ⟨err, n', rfl, (refused_leaves labSetup {}).1 _ _ _ _ himport⟩
    · cases hforeign
  · generalize hvote : submitFinalityVote diskSetup {} labSecondVote labEquivocated = outcome at hrefused hkept
    obtain ⟨err | _, n'⟩ := outcome
    · have hleft := (refused_leaves diskSetup {}).2.1 labEquivocated labSecondVote err n' hknown hvote
      refine ⟨err, n', rfl, hleft.resolve_left fun hstalled => ?_⟩
      obtain ⟨_, _, _, rfl⟩ := hstalled
      exact absurd (hkept.symm.trans hbefore) (by decide)
    · cases hrefused

end Lab

end ChainLab.Node
