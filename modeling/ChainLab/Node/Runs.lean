import ChainLab.Contracts.Token
import ChainLab.Crypto.Checksum
import ChainLab.Node.Chain
import ChainLab.Node.PoolInvariant

/-! Runs of the lab node: any sequence of calls on a new node, whatever the callers, the clock and the disk do. The
invariants of the chain and of the pool hold in every state that a run reaches. -/

namespace ChainLab.Node

open ChainLab.Lib ChainLab.Types ChainLab.Crypto ChainLab.State ChainLab.State.Store ChainLab.Core ChainLab.Consensus
open Relation (ReflTransGen)

/-- A node, and the headers of all blocks that it was shown or has made. -/
structure History where
  headers : List BlockHeader
  node : LabNode

section Calls

variable [Primitives]

/-- The headers of the blocks that a call shows to the node or has it make. -/
def LabNode.presented (setup : Setup) (world : World) (n : LabNode) : Call → List BlockHeader
  | .submitTx _ => []
  | .submitFinalityVote _ => []
  | .importBlock block => [block.header]
  | .produceBlock =>
    match blockTime n.head world.now,
      selectTransactions setup (n.nextContext setup) { working := n.state } n.pool.mempool with
    | .ok timeUnix, .ok draft => [(draftBlock setup n timeUnix draft).header]
    | _, _ => []

/-- The order of the world is one in which a range over the known blocks can visit them during the call. -/
def World.Visits (world : World) (n : LabNode) : Call → Prop
  | .importBlock block => Enumerates world.order (n.knownBlocks.insert block.hash block)
  | _ => True

/-- One call. -/
inductive Called (setup : Setup) : History → History → Prop
  | call (history : History) (world : World) (call : Call) (visits : world.Visits history.node call) :
    Called setup history
      ⟨history.node.presented setup world call ++ history.headers, history.node.call setup world call⟩

/-- A new node at its genesis block. -/
def Created (setup : Setup) (history : History) : Prop :=
  ∃ world config n, newNode world config = .ok (setup, n) ∧ history = ⟨n.blocks.map Block.header, n⟩

/-- What calls lead to from a new node. -/
def Reachable (setup : Setup) (history : History) : Prop :=
  ∃ start, Created setup start ∧ ReflTransGen (Called setup) start history

end Calls

section Invariants

variable [Primitives] {setup : Setup} {world : World} {n n' : LabNode} {headers : List BlockHeader}

/-! ### The pool of a node -/

/-- The invariant of the pool at the head of the node. -/
def LabNode.PoolSound (setup : Setup) (n : LabNode) : Prop :=
  n.pool.Sound setup.executor (n.nextContext setup) n.state

omit [Primitives] in
/-- The next context is one of the header of the head. -/
theorem nextContext_congr (h : n'.head.header = n.head.header) : n'.nextContext setup = n.nextContext setup := by
  simp only [LabNode.nextContext, nextBaseFee, effectiveHeaderBaseFee, h]

theorem LabNode.PoolSound.congr (h : n.PoolSound setup) (hpool : n'.pool = n.pool) (hstate : n'.state = n.state)
    (hhead : n'.head.header = n.head.header) : n'.PoolSound setup := by
  unfold LabNode.PoolSound
  rw [hpool, hstate, nextContext_congr hhead]
  exact h

theorem LabNode.PoolSound.noted (hr : setup.runtime.KeepsFunds) (h : n.PoolSound setup) (hnoted : Noted setup n n') :
    n'.PoolSound setup := by
  obtain ⟨⟨pool, votes, index, evidence, halt, generation, file, rfl⟩, hsubmits⟩ := hnoted
  have hkept : ∀ {pool' : Pool}, ReflTransGen (Submits setup n) n.pool pool' →
      pool'.Sound setup.executor (n.nextContext setup) n.state := by
    intro pool' hsubmits
    induction hsubmits with
    | refl => exact h
    | tail _ hsubmit ih =>
      obtain ⟨tx, hsubmit⟩ := hsubmit
      exact submitTransaction_sound hr ih hsubmit
  exact hkept hsubmits

omit [Primitives] in
theorem within_empty : Within [] :=
  ⟨Nat.zero_le _, fun _ => Nat.zero_le _, Nat.zero_le _⟩

theorem poolSound_empty (hpool : n.pool = {}) : n.PoolSound setup := by
  unfold LabNode.PoolSound
  rw [hpool]
  refine ⟨⟨⟨n.state, rfl, fun tx hmem => ?_, List.nodup_nil⟩, Nat.zero_le _, within_empty⟩, rfl⟩
  cases hmem

/-- The transactions that a new block leaves are among the pending ones, in their order. -/
theorem selectTransactions_remaining {context : ExecutionContext} (txs : List Transaction) :
    ∀ {draft draft' : BlockDraft}, selectTransactions setup context draft txs = .ok draft' →
      ∃ left, draft'.remaining = draft.remaining ++ left ∧ left.Sublist txs := by
  induction txs with
  | nil =>
    intro draft draft' h
    cases h
    exact ⟨[], (List.append_nil _).symm, .refl _⟩
  | cons tx txs ih =>
    intro draft draft' h
    have hleave : ∀ {next : BlockDraft}, next.remaining = draft.remaining ++ [tx] →
        selectTransactions setup context next txs = .ok draft' →
        ∃ left, draft'.remaining = draft.remaining ++ left ∧ left.Sublist (tx :: txs) := by
      intro next hnext h
      obtain ⟨left, hleft, hsublist⟩ := ih h
      refine ⟨tx :: left, ?_, hsublist.cons_cons tx⟩
      rw [hleft, hnext, List.append_assoc]
      rfl
    unfold selectTransactions at h
    split at h
    · cases h
      exact ⟨tx :: txs, rfl, .refl _⟩
    · rw [bind_ok] at h
      obtain ⟨txSize, -, h⟩ := h
      dsimp only at h
      split at h
      · split at h
        · cases h
        · exact hleave rfl h
      · rw [bind_ok] at h
        obtain ⟨nextGasUsed, -, h⟩ := h
        split at h
        · exact hleave rfl h
        · simp only [bind_ok] at h
          obtain ⟨_, -, _, -, h⟩ := h
          split at h
          · exact hleave rfl h
          · obtain ⟨left, hleft, hsublist⟩ := ih h
            exact ⟨left, hleft, hsublist.cons tx⟩

omit [Primitives] in
theorem Within.pending {mempool queued : List Transaction} (h : Within (mempool ++ queued)) : Within mempool :=
  h.sublist (List.sublist_append_left mempool queued)

/-- The pool that production leaves. -/
theorem Drafted.poolSound {block : Block} {working : Store} {mempool queued : List Transaction}
    (hr : setup.runtime.KeepsFunds) (h : n.PoolSound setup)
    (hdrafted : Drafted setup world n block working mempool queued) :
    (published n block working mempool queued).PoolSound setup := by
  obtain ⟨key, timeUnix, draft, signature, -, -, hselect, hpool, -, rfl, rfl⟩ := hdrafted.parts
  obtain ⟨left, hleft, hsublist⟩ := selectTransactions_remaining _ hselect
  rw [hleft] at hpool
  have hpooled := poolAfter_pooled hr (h.lists.within.pending.sublist hsublist) hpool
  have hcontext : (published n { draftBlock setup n timeUnix draft with signature } draft.working mempool queued).nextContext
      setup = contextAfter setup (draftBlock setup n timeUnix draft) := by
    have hhead : (published n { draftBlock setup n timeUnix draft with signature } draft.working mempool queued).head =
        { draftBlock setup n timeUnix draft with signature } := List.getLastD_concat
    rw [LabNode.nextContext, hhead]
    rfl
  unfold LabNode.PoolSound
  rw [hcontext]
  exact ⟨hpooled, transactionPoolBytes_eq mempool queued⟩

/-- The pool that a reorganisation leaves. -/
theorem prepareCanonicalChain_pooled {blockHash : String} {chain : List Block} {working : Store}
    {mempool queued : List Transaction} (hr : setup.runtime.KeepsFunds) (h : n.PoolSound setup)
    (hprepare : prepareCanonicalChain setup n blockHash = .ok (chain, working, mempool, queued)) :
    Pooled setup.executor (contextAfter setup (chain.getLastD default)) working mempool queued := by
  simp only [prepareCanonicalChain, bind_ok, pure_eq_ok, Except.ok.injEq, Prod.mk.injEq] at hprepare
  obtain ⟨⟨chain', working'⟩, -, ⟨mempool', queued'⟩, hpool, ⟨mempool'', queued''⟩, hreinsert, rfl, rfl, rfl, rfl⟩ :=
    hprepare
  have hwithin : Within (filterTransactionsByHash n.pool.mempool (transactionHashes chain')) :=
    h.lists.within.pending.sublist List.filter_sublist
  exact reinsertOrphanedTransactionsForState_pooled hr (poolAfter_pooled hr hwithin hpool) hreinsert

theorem Installed.poolSound {block : Block} (hr : setup.runtime.KeepsFunds) (hchain : n.OnChain headers)
    (hfree : NoCollision headers) (hplaced : Placed headers n block) (h : n.PoolSound setup)
    (hinstalled : Installed setup world n block n') : n'.PoolSound setup := by
  obtain ⟨-, noted, change, hnoted, hchange, hstalled⟩ := hinstalled
  have hwith : (withBlock n block).PoolSound setup := by
    refine h.congr ?_ ?_ (congrArg (fun blocks => (blocks.getLastD default).header) (blocks_withBlock n block))
    · unfold withBlock
      split
      · rfl
      · rfl
    · unfold withBlock
      split
      · rfl
      · rfl
  have hsound := hwith.noted hr hnoted
  have hblocks := hnoted.chain.2.1.trans (blocks_withBlock n block)
  have hchanged : (applyChange noted change).PoolSound setup := by
    unfold canonicalChange at hchange
    split at hchange
    · simp only [bind_ok, pure_eq_ok, Except.ok.injEq] at hchange
      obtain ⟨⟨chain, working, mempool, queued⟩, hprepare, rfl⟩ := hchange
      exact ⟨prepareCanonicalChain_pooled hr hsound hprepare, transactionPoolBytes_eq mempool queued⟩
    · split at hchange
      · next hcertified =>
        obtain rfl := Except.ok.inj hchange
        obtain ⟨-, found, hfound, hhash⟩ := hcertified
        have hfound' : n.blocks[block.header.height.toNat]? = some found := hblocks ▸ hfound
        have hheader := (canonical_header hchain hfree hplaced hfound' hhash).2
        exact hsound.congr rfl rfl (header_getLastD_set hfound hheader.symm)
      · obtain rfl := Except.ok.inj hchange
        exact hsound
  exact hchanged.noted hr (.of_stalled hstalled)

theorem Voted.poolSound {vote : FinalitySignature} (hr : setup.runtime.KeepsFunds) (hchain : n.OnChain headers)
    (h : n.PoolSound setup) (hvoted : Voted setup n vote n') : n'.PoolSound setup := by
  have hcast : ∀ {block : Block} {recorded : LabNode}, recorded = n ∨ recorded = indexVote block vote n →
      Noted setup n (castVote block vote recorded) := by
    rintro block recorded (rfl | rfl)
    · exact ⟨⟨_, _, _, _, _, _, _, rfl⟩, .refl⟩
    · exact ⟨⟨_, _, _, _, _, _, _, rfl⟩, .refl⟩
  cases hvoted with
  | counted _ _ hfirst hstalled => exact h.noted hr ((hcast hfirst).trans (.of_stalled hstalled))
  | @certified block certified _ recorded _ _ hmatched hfirst hcertified hvalid hstalled =>
    have hheader : certified.header = block.header := by rw [hcertified, certifiedBlock]
    obtain ⟨i, hi⟩ := List.mem_iff_getElem?.mp (mem_of_matchFinalityVote hmatched)
    have hindex : certified.header.height.toNat = i := hheader ▸ hchain.path.height _ _ hi
    have hsound := h.noted hr (hcast hfirst)
    have hhead : (castVote block vote recorded).head = n.head :=
      congrArg (fun blocks => blocks.getLastD default) (hcast hfirst).chain.2.1
    have hset : LabNode.PoolSound setup { lockCertified certified (castVote block vote recorded) with
        blocks := n.blocks.set certified.header.height.toNat certified } := by
      refine hsound.congr rfl rfl ?_
      rw [hhead, hindex]
      exact header_getLastD_set hi hheader
    exact hset.noted hr (.of_stalled hstalled)

/-! ### One call -/

/-- The two invariants of a node. -/
structure LabNode.Sound (setup : Setup) (headers : List BlockHeader) (n : LabNode) : Prop where
  chain : n.OnChain headers
  pool : n.PoolSound setup

/-- What a call keeps, and how it moves the lock. -/
def LabNode.Kept (setup : Setup) (headers : List BlockHeader) (n n' : LabNode) : Prop :=
  n'.Sound setup headers ∧ n.Advanced n'

/-- A step that does not touch the chain. -/
theorem kept_of_noted (hr : setup.runtime.KeepsFunds) (h : n.Sound setup headers) (hnoted : Noted setup n n') :
    n.Kept setup headers n' := by
  obtain ⟨hknown, hblocks, hlock⟩ := hnoted.chain
  refine ⟨⟨?_, h.pool.noted hr hnoted⟩, ?_⟩
  · unfold LabNode.OnChain
    rw [hknown, hblocks, hlock]
    exact h.chain
  · unfold LabNode.Advanced
    rw [hknown, hlock]
    exact h.chain.stays

theorem submitAndPersistTx_kept (hr : setup.runtime.KeepsFunds) (h : n.Sound setup headers) (tx : Transaction) :
    n.Kept setup headers (submitAndPersistTx setup world tx n).2 := by
  refine (submitAndPersistTx_spec tx).leaves rfl (fun _ s hs => ?_) fun _ s hs => kept_of_noted hr h (.of_stalled hs)
  obtain ⟨pool, hstalled, hpool⟩ := hs
  have hsubmitted : Noted setup n { n with pool } := ⟨⟨_, _, _, _, _, _, _, rfl⟩, .single ⟨tx, hpool⟩⟩
  exact kept_of_noted hr h (hsubmitted.trans (.of_stalled hstalled))

/-- The counts of known blocks are in neither invariant. -/
theorem kept_of_counts (hr : setup.runtime.KeepsFunds) (h : n.Sound setup headers) {knownBlockHeights : GoMap UInt64 Nat}
    (hstalled : Stalled { n with knownBlockHeights } n') : n.Kept setup headers n' := by
  have hsame : LabNode.Sound setup headers { n with knownBlockHeights } := ⟨h.chain, h.pool⟩
  have hkept : LabNode.Kept setup headers { n with knownBlockHeights } n' :=
    kept_of_noted hr hsame (.of_stalled hstalled)
  exact hkept

theorem Drafted.presented_mem {block : Block} {working : Store} {mempool queued : List Transaction}
    (h : Drafted setup world n block working mempool queued) : block.header ∈ n.presented setup world .produceBlock := by
  obtain ⟨_, timeUnix, draft, signature, -, htime, hselect, -, -, rfl, -⟩ := h.parts
  unfold LabNode.presented
  rw [htime, hselect]
  exact List.mem_singleton_self _

theorem produceBlock_kept (hr : setup.runtime.KeepsFunds)
    (hfree : NoCollision (n.presented setup world .produceBlock ++ headers))
    (h : n.Sound setup (n.presented setup world .produceBlock ++ headers)) :
    n.Kept setup (n.presented setup world .produceBlock ++ headers) (produceBlock setup world n).2 := by
  refine produceBlock_spec.leaves rfl (fun block s hs => ?_) fun _ s hs => ?_
  · obtain ⟨working, mempool, queued, hdrafted, hstalled⟩ := hs
    have hmem := List.mem_append_left headers hdrafted.presented_mem
    obtain ⟨hchain, hadvanced⟩ := hdrafted.published_chained h.chain hfree hmem
    obtain ⟨hsound, -⟩ := kept_of_noted hr ⟨hchain, hdrafted.poolSound hr h.pool⟩ (.of_stalled hstalled)
    refine ⟨hsound, ?_⟩
    obtain ⟨hknown, -, hlock⟩ := hstalled.chain
    unfold LabNode.Advanced
    rw [hknown, hlock]
    exact hadvanced
  · rcases hs with hstalled | ⟨block, working, mempool, queued, hdrafted, hwithdrawn⟩
    · exact kept_of_noted hr h (.of_stalled hstalled)
    · have hmem := List.mem_append_left headers hdrafted.presented_mem
      obtain ⟨heights, hstalled⟩ := hdrafted.withdrawn_unmoved h.chain hfree hmem hwithdrawn
      exact kept_of_counts hr h hstalled

/-- The place that an import has found for a block. -/
theorem placed_of_import {block installed parent : Block} {parentState after : Store}
    (hpresented : block.header ∈ headers) (hheader : installed.header = block.header)
    (hattached : block.hash ∈ n.knownBlocks → installed.finalityCertificate ≠ none)
    (hlocated : locateImportedBlock n block = .ok parent)
    (hvalid : LabNode.validateBlockOnState setup parent parentState block = .ok after) : Placed headers n installed := by
  simp only [locateImportedBlock, bind_ok, require_ok, pure_eq_ok, Except.ok.injEq] at hlocated
  obtain ⟨found, hfound, _, -, _, -, rfl⟩ := hlocated
  simp only [LabNode.validateBlockOnState, bind_ok] at hvalid
  obtain ⟨_, -, _, hvalidated, -⟩ := hvalid
  refine ⟨hheader ▸ hpresented, ⟨found, hheader ▸ hfound, ?_⟩, ?_⟩
  · rw [hheader]
    exact (validateBlock_links hvalidated).2
  · rw [hash_congr hheader]
    exact hattached

theorem enumerates_congr {block installed : Block} {order : List String} (hheader : installed.header = block.header)
    (h : Enumerates order (n.knownBlocks.insert block.hash block)) :
    Enumerates order (n.knownBlocks.insert installed.hash installed) := by
  refine ⟨h.1, fun blockHash => ?_⟩
  rw [h.2, Finmap.mem_insert, Finmap.mem_insert, hash_congr hheader]

theorem importBlock_kept (hr : setup.runtime.KeepsFunds) {block : Block} (hfree : NoCollision headers)
    (hpresented : block.header ∈ headers) (horder : Enumerates world.order (n.knownBlocks.insert block.hash block))
    (h : n.Sound setup headers) : n.Kept setup headers (importBlock setup world block n).2 := by
  refine (importBlock_spec block).leaves rfl (fun _ s hs => ?_) fun _ s hs => ?_
  · cases hs with
    | nothing => exact kept_of_noted hr h (.refl n)
    | @installed installed parent parentState after _ hheader _ _ hattached _ hlocated _ hvalid hchange =>
      have hplaced := placed_of_import hpresented hheader hattached hlocated hvalid
      obtain ⟨hchain, hadvanced⟩ := Installed.chained h.chain hfree hplaced (enumerates_congr hheader horder) hchange
      exact ⟨⟨hchain, hchange.poolSound hr h.chain hfree hplaced h.pool⟩, hadvanced⟩
  · obtain ⟨heights, hstalled, -⟩ := hs
    exact kept_of_counts hr h hstalled

theorem submitFinalityVote_kept (hr : setup.runtime.KeepsFunds) (h : n.Sound setup headers) (vote : FinalitySignature) :
    n.Kept setup headers (submitFinalityVote setup world vote n).2 := by
  have hknown : ∀ block ∈ n.blocks, block.hash ∈ n.knownBlocks :=
    fun block hmem => mem_of_lookup (h.chain.path.mem_known hmem)
  refine (submitFinalityVote_spec hknown vote).leaves rfl (fun _ s hs => ?_) fun _ s hs => kept_of_noted hr h hs.noted
  obtain ⟨hchain, hadvanced⟩ := hs.chained h.chain
  exact ⟨⟨hchain, hs.poolSound hr h.chain h.pool⟩, hadvanced⟩

/-- Every call keeps the two invariants, and moves the lock to a descendant if it moves it. -/
theorem call_kept (hr : setup.runtime.KeepsFunds) (h : n.Sound setup headers) (call : Call)
    (hvisits : world.Visits n call) (hfree : NoCollision (n.presented setup world call ++ headers)) :
    n.Kept setup (n.presented setup world call ++ headers) (n.call setup world call) := by
  have hmore : n.Sound setup (n.presented setup world call ++ headers) :=
    ⟨h.chain.mono (List.subset_append_right _ _), h.pool⟩
  cases call with
  | submitTx tx => exact submitAndPersistTx_kept hr hmore tx
  | produceBlock => exact produceBlock_kept hr hfree hmore
  | importBlock block => exact importBlock_kept hr hfree List.mem_cons_self hvisits hmore
  | submitFinalityVote vote => exact submitFinalityVote_kept hr hmore vote

/-! ### Whole runs -/

variable {start history later : History}

theorem genesis_chained (setup : Setup) (store : Store) :
    (genesisNode setup store).OnChain ((genesisNode setup store).blocks.map Block.header) := by
  let genesis := nodeGenesis setup.chainID store setup.genesisTimeUnix setup.blockGasLimit
  have hlookup : ∀ {blockHash block}, (genesisNode setup store).knownBlocks.lookup blockHash = some block →
      blockHash = genesis.hash ∧ block = genesis := by
    intro blockHash block h
    rw [genesisNode, GoMap.lookup_insert_if] at h
    split at h
    · next heq => exact ⟨heq, (Option.some.inj h).symm⟩
    · cases h
  have hknown : (genesisNode setup store).knownBlocks.lookup genesis.hash = some genesis := by
    rw [genesisNode, GoMap.lookup_insert_if, if_pos rfl]
  have hblock : ∀ {i : Nat} {block}, (genesisNode setup store).blocks[i]? = some block → i = 0 ∧ block = genesis := by
    intro i block h
    cases i with
    | zero => exact ⟨rfl, (Option.some.inj h).symm⟩
    | succ i => cases h
  refine ⟨⟨?_, ?_, ?_, ?_⟩, ⟨?_, ?_, ?_, List.cons_ne_nil _ _⟩, ⟨genesis, rfl, rfl⟩, ?_, ?_, ?_⟩
  · intro blockHash block h
    obtain ⟨rfl, rfl⟩ := hlookup h
    rfl
  · intro blockHash block h
    obtain ⟨-, rfl⟩ := hlookup h
    exact List.mem_cons_self
  · intro blockHash block h _
    obtain ⟨-, rfl⟩ := hlookup h
    rfl
  · intro blockHash block h hpositive
    obtain ⟨-, rfl⟩ := hlookup h
    exact absurd rfl hpositive
  · intro i block h
    obtain ⟨-, rfl⟩ := hblock h
    exact hknown
  · intro i block h
    obtain ⟨rfl, rfl⟩ := hblock h
    rfl
  · intro i parent block _ h
    obtain ⟨hzero, -⟩ := hblock h
    cases hzero
  · intro blockHash block h _
    obtain ⟨-, rfl⟩ := hlookup h
    exact le_rfl
  · intro hpositive
    exact absurd rfl hpositive
  · intro blockHash h
    obtain ⟨block, hblock⟩ := Finmap.mem_iff.mp h.1
    rw [heightOf_of_lookup hblock]
    obtain ⟨-, rfl⟩ := hlookup hblock
    exact Nat.zero_le _

theorem newNode_ok {config : Config} (h : newNode world config = .ok (setup, n)) :
    setup.runtime = Contracts.runtime config.engine ∧ ∃ store, Stalled (genesisNode setup store) n := by
  simp only [newNode, bind_ok] at h
  obtain ⟨proposer, -, store, -, h⟩ := h
  split at h
  · cases h
  · next hpersist =>
    obtain ⟨hsetup, rfl⟩ := Prod.mk.inj (Except.ok.inj h)
    rw [hsetup] at hpersist
    refine ⟨hsetup ▸ rfl, store, ?_⟩
    have hkept := @persist_keeps setup world (genesisNode setup store) _ _ (Stalled.refl _)
    rw [hpersist] at hkept
    exact hkept

theorem created_sound (h : Created setup start) :
    start.node.Sound setup start.headers ∧ setup.runtime.KeepsFunds := by
  obtain ⟨world, config, n, hnew, rfl⟩ := h
  obtain ⟨hruntime, store, hstalled⟩ := newNode_ok hnew
  have hr : setup.runtime.KeepsFunds := hruntime ▸ Contracts.runtime_keepsFunds config.engine
  have hgenesis : (genesisNode setup store).Sound setup ((genesisNode setup store).blocks.map Block.header) :=
    ⟨genesis_chained setup store, poolSound_empty rfl⟩
  obtain ⟨hsound, -⟩ := kept_of_noted hr hgenesis (.of_stalled hstalled)
  rw [← hstalled.chain.2.1] at hsound
  exact ⟨hsound, hr⟩

/-- A run only adds headers. -/
theorem run_free (hrun : ReflTransGen (Called setup) history later) (hfree : NoCollision later.headers) :
    NoCollision history.headers := by
  induction hrun with
  | refl => exact hfree
  | tail _ hcalled ih =>
    cases hcalled
    exact ih hfree.of_append

/-- Over a run the two invariants are kept. -/
theorem run_sound (hr : setup.runtime.KeepsFunds) (h : history.node.Sound setup history.headers)
    (hrun : ReflTransGen (Called setup) history later) (hfree : NoCollision later.headers) :
    later.node.Sound setup later.headers := by
  induction hrun with
  | refl => exact h
  | tail _ hcalled ih =>
    cases hcalled with
    | call world call visits => exact (call_kept hr (ih hfree.of_append) call visits hfree).1

theorem Reachable.sound (h : Reachable setup history) (hfree : NoCollision history.headers) :
    history.node.Sound setup history.headers ∧ setup.runtime.KeepsFunds := by
  obtain ⟨start, hcreated, hrun⟩ := h
  obtain ⟨hsound, hr⟩ := created_sound hcreated
  exact ⟨run_sound hr hsound hrun hfree, hr⟩

/-! ### The pool of every reachable node -/

omit [Primitives] in
theorem le_poolSize {txs : List Transaction} {tx : Transaction} (h : tx ∈ txs) : canonicalSize tx ≤ poolSize txs :=
  List.le_sum_of_mem (List.mem_map_of_mem h)

omit [Primitives] in
/-- The two underflow branches test the bytes of a transaction of the pool against the cached count. -/
theorem no_underflow {pool : Pool} {previous : Transaction} (h : canonicalSize previous ≤ pool.txPoolBytes) (size : Nat) :
    pool.validateReplacementTxPoolBytes previous size ≠ .error (newError "transaction pool byte accounting underflow") := by
  unfold Pool.validateReplacementTxPoolBytes
  rw [refuseIf, if_neg (Nat.not_lt.mpr h)]
  dsimp only [Bind.bind, Except.bind]
  unfold refuseIf
  split
  · intro heq
    injection heq with heq
    exact absurd heq (by decide)
  · intro heq
    cases heq

/-- In every node that calls lead to: no slot of the pool is taken twice; the pending list executes at the head; the
nonces of the queue are not below those that it leaves; the limits on the transactions, on the queue, on each sender
and on the bytes are met; and the cached count is the number of bytes, so that no replacement underflows it. -/
theorem pool_sound (h : Reachable setup history) (hfree : NoCollision history.headers) :
    ((history.node.pool.mempool ++ history.node.pool.queued).map senderNonce).Nodup ∧
    (∃ working, history.node.pendingState setup = .ok working ∧
      ∀ tx ∈ history.node.pool.queued, (working.getAccount tx.fromAddress).nonce ≤ tx.nonce) ∧
    history.node.pool.mempool.length + history.node.pool.queued.length ≤ 4096 ∧
    history.node.pool.queued.length ≤ 2048 ∧
    (∀ sender, sentBy sender (history.node.pool.mempool ++ history.node.pool.queued) ≤ 64) ∧
    history.node.pool.txPoolBytes ≤ 134217728 ∧
    history.node.pool.txPoolBytes =
      transactionPoolBytes history.node.pool.mempool history.node.pool.queued ∧
    ∀ previous ∈ history.node.pool.mempool ++ history.node.pool.queued,
      canonicalSize previous ≤ history.node.pool.txPoolBytes ∧
      ∀ size, history.node.pool.validateReplacementTxPoolBytes previous size ≠
        .error (newError "transaction pool byte accounting underflow") := by
  obtain ⟨⟨-, hpool⟩, hr⟩ := h.sound hfree
  obtain ⟨hlists, hbytes⟩ := hpool
  have hwithin := hlists.within
  obtain ⟨working, hworking, hwaits⟩ := hlists.executes
  refine ⟨hlists.slots hr, ⟨working, hworking, fun tx hmem => UInt64.le_iff_toNat_le.mpr (hwaits.later tx hmem)⟩, ?_,
    hlists.queuedCount, hwithin.perSender, ?_, ?_, fun previous hmem => ?_⟩
  · rw [← List.length_append]
    exact hwithin.count
  · rw [hbytes]
    exact hwithin.bytes
  · rw [hbytes, transactionPoolBytes_eq]
  · have hle : canonicalSize previous ≤ history.node.pool.txPoolBytes := by
      rw [hbytes]
      exact le_poolSize hmem
    exact ⟨hle, no_underflow hle⟩

/-- The scan of the pending list finds the nonce that its execution leaves, in every node that calls lead to. -/
theorem pendingNonce_agrees (h : Reachable setup history) (hfree : NoCollision history.headers) :
    ∃ working, history.node.pendingState setup = .ok working ∧
      ∀ address, history.node.pendingNonce address = (working.getAccount address).nonce := by
  obtain ⟨⟨-, hpool⟩, hr⟩ := h.sound hfree
  obtain ⟨working, hworking, -⟩ := hpool.lists.executes
  exact ⟨working, hworking, pendingNonce_eq hr hworking⟩

end Invariants

/-! ### The run of a lab -/

section Lab

attribute [local instance] checksumPrimitives

/-- One validator, which holds all the money. -/
def labConfig : Config where
  role := .validator
  chainID := "lab"
  proposerKey := some ⟨keyAddress 1, fun _ => .ok (keySignature 1)⟩
  validators := [keyAddress 1]
  genesisBalance := (∅ : GoMap String UInt64).insert (keyAddress 1) 1000000000
  genesisTimeUnix := 1
  feeCollector := ""
  blockGasLimit := 0
  persistent := false
  engine := Contracts.noGuests

def labStore : Store := (newGenesisStore labConfig.genesisBalance labConfig.validators).toOption.getD {}

def deployCounter : Transaction where
  chainID := "lab"
  type := .deploy
  fromAddress := keyAddress 1
  gasLimit := 1000000
  gasPrice := 10
  payload := GoMap.ofList [("code_id", "counter.v1")]
  signature := keySignature 1

def sendSeven (nonce : UInt64) : Transaction where
  chainID := "lab"
  type := .transfer
  fromAddress := keyAddress 1
  toAddress := keyAddress 2
  value := 7
  nonce := nonce
  gasLimit := 30000
  gasPrice := 10
  signature := keySignature 1

theorem checkConfig_lab : checkConfig labConfig = .ok (keyAddress 1) := by decide +kernel

theorem newGenesisStore_lab :
    newGenesisStore labConfig.genesisBalance labConfig.validators = .ok labStore :=
  eq_ok_getD _ (by decide +kernel)

def labSetup : Setup where
  role := .validator
  chainID := "lab"
  proposerKey := labConfig.proposerKey
  proposer := keyAddress 1
  runtime := Contracts.runtime labConfig.engine
  genesisState := labStore.snapshot
  blockGasLimit := defaultBlockGasLimit
  genesisTimeUnix := 1
  persistent := false

/-- The history of a lab after one more call. -/
def History.called (history : History) (world : World) (call : Call) : History where
  headers := history.node.presented labSetup world call ++ history.headers
  node := history.node.call labSetup world call

/-- The lab at its genesis block. -/
def labStart : History :=
  let genesis := genesisNode labSetup labStore
  ⟨genesis.blocks.map Block.header, genesis⟩

/-- A block with a deployment and a transfer. -/
def labProduced : History :=
  ((labStart.called {} (.submitTx deployCounter)).called {} (.submitTx (sendSeven 1))).called { now := 5 } .produceBlock

/-- The validator votes for the block. -/
def labVote : FinalitySignature where
  chainID := "lab"
  height := 1
  blockHash := labProduced.node.head.hash
  validator := keyAddress 1
  signature := keySignature 1

def labCertified : History := labProduced.called {} (.submitFinalityVote labVote)

/-- One more transfer of the same sender can be executed next, another one not yet. -/
def labPending : History :=
  (labCertified.called {} (.submitTx (sendSeven 2))).called {} (.submitTx (sendSeven 4))

theorem lab_created : Created labSetup labStart := by
  refine ⟨{}, labConfig, _, ?_, rfl⟩
  unfold newNode
  rw [checkConfig_lab, newGenesisStore_lab]
  rfl

theorem labProduced_reachable : Reachable labSetup labProduced :=
  ⟨labStart, lab_created, .tail (.tail (.single (.call _ {} (.submitTx deployCounter) trivial))
    (.call _ {} (.submitTx (sendSeven 1)) trivial)) (.call _ { now := 5 } .produceBlock trivial)⟩

theorem labCertified_called : ReflTransGen (Called labSetup) labProduced labCertified :=
  .single (.call _ {} (.submitFinalityVote labVote) trivial)

theorem labPending_called : ReflTransGen (Called labSetup) labCertified labPending :=
  .tail (.single (.call _ {} (.submitTx (sendSeven 2)) trivial)) (.call _ {} (.submitTx (sendSeven 4)) trivial)

theorem labPending_reachable : Reachable labSetup labPending := by
  obtain ⟨start, hcreated, hrun⟩ := labProduced_reachable
  exact ⟨start, hcreated, (hrun.trans labCertified_called).trans labPending_called⟩

/-- What the calls of the lab did. -/
theorem lab_ran :
    (NoCollision labPending.headers ∧ labProduced.node.finalityLock.height = 0 ∧
      labCertified.node.finalityLock.height = 1) ∧
    labPending.node.pool.mempool = [sendSeven 2] ∧ labPending.node.pool.queued = [sendSeven 4] ∧
    labPending.node.pendingNonce (keyAddress 1) = 3 := by
  decide +kernel

theorem pool_sound_lab :
    labPending.node.pool.mempool = [sendSeven 2] ∧ labPending.node.pool.queued = [sendSeven 4] ∧
    ((labPending.node.pool.mempool ++ labPending.node.pool.queued).map senderNonce).Nodup ∧
    ∃ working, labPending.node.pendingState labSetup = .ok working ∧
      (working.getAccount (keyAddress 1)).nonce ≤ 4 := by
  obtain ⟨⟨hfree, -, -⟩, hmempool, hqueued, -⟩ := lab_ran
  obtain ⟨hslots, ⟨working, hworking, hlater⟩, -⟩ := pool_sound labPending_reachable hfree
  have hmem : sendSeven 4 ∈ labPending.node.pool.queued := by
    rw [hqueued]
    exact List.mem_singleton_self _
  exact ⟨hmempool, hqueued, hslots, working, hworking, hlater (sendSeven 4) hmem⟩

theorem pendingNonce_agrees_lab :
    labPending.node.pendingNonce (keyAddress 1) = 3 ∧
    ∃ working, labPending.node.pendingState labSetup = .ok working ∧
      (working.getAccount (keyAddress 1)).nonce = 3 := by
  obtain ⟨⟨hfree, -, -⟩, -, -, hnonce⟩ := lab_ran
  obtain ⟨working, hworking, hagrees⟩ := pendingNonce_agrees labPending_reachable hfree
  exact ⟨hnonce, working, hworking, (hagrees _).symm.trans hnonce⟩

end Lab

end ChainLab.Node
