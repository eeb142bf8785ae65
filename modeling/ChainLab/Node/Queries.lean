import ChainLab.Lib.Search
import ChainLab.Node.Moves

/-! Queries of the canonical chain. The indexes that the node keeps up to date block by block are those of its canonical
chain, after any number of reorganisations, so that a query by binary search answers from the canonical blocks. -/

namespace ChainLab.Node

open ChainLab.Lib ChainLab.Types ChainLab.Crypto ChainLab.State ChainLab.Core ChainLab.Consensus

structure EventFilter where
  fromBlock : UInt64 := 0
  toBlock : UInt64 := 0
  hasToBlock : Bool := false
  address : String := ""
  addresses : List String := []
  requireAddress : Bool := false
  topic0 : String := ""
  topic0s : List String := []
  limit : Int := 0
  descending : Bool := false

/-- The limit of a filter on what it has collected. -/
def EventFilter.limited (filter : EventFilter) (records : List EventRecord) : List EventRecord :=
  if filter.limit > 0 then records.take filter.limit.toNat else records

/-- `eventFilterValues`; no values stand for no restriction. -/
def eventFilterValues (single : String) (multiple : List String) : Finset String :=
  let values := (multiple.map toLower).toFinset
  if single ≠ "" then insert (toLower single) values else values

/-- `eventMatchesFilter`. -/
def eventMatchesFilter (record : EventRecord) (fromBlock toBlock : UInt64) (addresses topics : Finset String)
    (requireAddress : Bool) : Bool :=
  if record.blockHeight < fromBlock ∨ record.blockHeight > toBlock then false
  else if requireAddress = true ∧ record.address = "" then false
  else if addresses.card > 0 ∧ toLower record.address ∉ addresses then false
  else if topics.card > 0 then toLower record.topic0 ∈ topics
  else true

/-- The descending loop of `Events`, over the records from the last one: the block at the end comes first, its own
records in their order. -/
def newestFirst : List EventRecord → List EventRecord
  | [] => []
  | last :: before =>
    (last :: before.takeWhile fun record => record.blockHeight = last.blockHeight).reverse ++
      newestFirst (before.dropWhile fun record => record.blockHeight = last.blockHeight)
termination_by records => records.length
decreasing_by exact Nat.lt_succ_of_le (List.length_dropWhile_le _ _)

namespace LabNode

variable (n : LabNode)

/-- The last block that a filter asks for. -/
def lastBlock (filter : EventFilter) : UInt64 :=
  if filter.hasToBlock = false ∧ filter.toBlock = 0 then n.head.header.height else filter.toBlock

/-- The test that `Events` makes of a record. -/
def accepts (filter : EventFilter) (record : EventRecord) : Bool :=
  eventMatchesFilter record filter.fromBlock (n.lastBlock filter) (eventFilterValues filter.address filter.addresses)
    (eventFilterValues filter.topic0 filter.topic0s) filter.requireAddress

/-- `Events`. -/
def events (filter : EventFilter) : List EventRecord :=
  if n.lastBlock filter < filter.fromBlock then []
  else
    let index := n.index.eventIndex
    let start := sortSearch index.length fun i => (index[i]?).any fun record => record.blockHeight ≥ filter.fromBlock
    let stop := sortSearch index.length fun i => (index[i]?).any fun record => record.blockHeight > n.lastBlock filter
    let window := (index.take stop).drop start
    let visited := if filter.descending = true then newestFirst window.reverse else window
    filter.limited (visited.filter (n.accepts filter))

/-- `Transaction`. -/
def transaction (hash : String) : Option TransactionRecord := n.index.txIndex.lookup hash

/-- `Block`. -/
def block (height : UInt64) : Option Block := n.blocks[height.toNat]?

end LabNode

/-! ### The records of a block -/

section Records

variable [Primitives] {block : Block} {index : ChainIndex} {blocks : List Block}

/-- How many logs a transaction adds to the count of its block. -/
def logsOf (block : Block) (entry : Transaction × Nat) : UInt64 :=
  let receipt := receiptAt block entry.2 entry.1
  if toLower (eventSourceAddress entry.1 receipt) ≠ "" then UInt64.ofNat receipt.events.length else 0

/-- The records of some transactions of a block, the first of which gets the next number of a log. -/
def recordsFrom (block : Block) : List (Transaction × Nat) → UInt64 → List EventRecord
  | [], _ => []
  | entry :: rest, blockLogIndex =>
    eventRecords block entry.1 (receiptAt block entry.2 entry.1) entry.2 blockLogIndex ++
      recordsFrom block rest (blockLogIndex + logsOf block entry)

/-- The records of a block. -/
def blockEvents (block : Block) : List EventRecord := recordsFrom block block.transactions.zipIdx 0

theorem eventIndex_foldl (entries : List (Transaction × Nat)) (blockLogIndex : UInt64) :
    (entries.foldl (indexTransaction block) (index, blockLogIndex)).1.eventIndex =
      index.eventIndex ++ recordsFrom block entries blockLogIndex := by
  induction entries generalizing index blockLogIndex with
  | nil => exact (List.append_nil _).symm
  | cons entry rest ih =>
    rw [List.foldl_cons]
    exact (ih _).trans (List.append_assoc _ _ _)

theorem eventIndex_indexBlock (index : ChainIndex) (block : Block) :
    (indexBlock index block).eventIndex = index.eventIndex ++ blockEvents block :=
  eventIndex_foldl _ 0

theorem eventIndex_rebuildTxIndex (blocks : List Block) :
    (rebuildTxIndex blocks).eventIndex = blocks.flatMap blockEvents := by
  have hfold : ∀ index : ChainIndex, (blocks.foldl indexBlock index).eventIndex =
      index.eventIndex ++ blocks.flatMap blockEvents := by
    induction blocks with
    | nil => exact fun index => (List.append_nil _).symm
    | cons block blocks ih =>
      intro index
      rw [List.foldl_cons, ih, eventIndex_indexBlock, List.append_assoc, List.flatMap_cons]
  exact hfold {}

theorem blockHeight_eventRecords {tx : Transaction} {receipt : Receipt} {i : Nat} {blockLogIndex : UInt64}
    {record : EventRecord} (h : record ∈ eventRecords block tx receipt i blockLogIndex) :
    record.blockHeight = block.header.height := by
  obtain ⟨event, -, rfl⟩ := List.mem_map.mp h
  rfl

theorem blockHeight_blockEvents {record : EventRecord} (h : record ∈ blockEvents block) :
    record.blockHeight = block.header.height := by
  have hfrom : ∀ (entries : List (Transaction × Nat)) (blockLogIndex : UInt64),
      record ∈ recordsFrom block entries blockLogIndex → record.blockHeight = block.header.height := by
    intro entries
    induction entries with
    | nil => exact fun _ hmem => absurd hmem List.not_mem_nil
    | cons entry rest ih =>
      intro blockLogIndex hmem
      rcases List.mem_append.mp hmem with hmem | hmem
      · exact blockHeight_eventRecords hmem
      · exact ih _ hmem
  exact hfrom _ 0 h

/-- What a record of the transaction index says. -/
structure Recorded (block : Block) (hash : String) (record : TransactionRecord) : Prop where
  place : block.transactions[record.index]? = some record.transaction
  hash : record.transaction.hash = hash
  receipt : record.receipt = receiptAt block record.index record.transaction
  height : record.blockHeight = block.header.height
  blockHash : record.blockHash = block.hash

/-- The transaction index of some blocks: what it holds is of one of them, and none of their transactions is missing. -/
structure TxIndexed (blocks : List Block) (txIndex : GoMap String TransactionRecord) : Prop where
  recorded : ∀ hash record, txIndex.lookup hash = some record → ∃ block ∈ blocks, Recorded block hash record
  complete : ∀ block ∈ blocks, ∀ tx ∈ block.transactions, tx.hash ∈ txIndex

theorem txIndex_foldl {txIndex : GoMap String TransactionRecord} (entries : List (Transaction × Nat))
    (hentries : ∀ entry ∈ entries, block.transactions[entry.2]? = some entry.1) :
    ∀ {state state' : ChainIndex × UInt64}, state.1.txIndex = txIndex →
      entries.foldl (indexTransaction block) state = state' →
      (∀ hash record, state'.1.txIndex.lookup hash = some record →
        txIndex.lookup hash = some record ∨ Recorded block hash record) ∧
      (∀ hash ∈ txIndex, hash ∈ state'.1.txIndex) ∧ ∀ entry ∈ entries, entry.1.hash ∈ state'.1.txIndex := by
  induction entries generalizing txIndex with
  | nil =>
    rintro state state' rfl rfl
    exact ⟨fun _ _ h => .inl h, fun _ h => h, fun _ h => absurd h List.not_mem_nil⟩
  | cons entry rest ih =>
    intro state state' hstate hfold
    rw [List.foldl_cons] at hfold
    obtain ⟨hrecorded, hkept, hrest⟩ := ih (fun other hmem => hentries other (List.mem_cons_of_mem _ hmem)) rfl hfold
    have hinsert : (indexTransaction block state entry).1.txIndex = txIndex.insert entry.1.hash
        { transaction := entry.1, receipt := receiptAt block entry.2 entry.1, blockHeight := block.header.height
          blockHash := block.hash, index := entry.2 } := hstate ▸ rfl
    rw [hinsert] at hrecorded hkept
    refine ⟨fun hash record hlookup => ?_, fun hash hmem => hkept hash (Finmap.mem_insert.mpr (.inr hmem)),
      fun other hmem => ?_⟩
    · rcases hrecorded hash record hlookup with hlookup | hrecord
      · rw [GoMap.lookup_insert_if] at hlookup
        split at hlookup
        · next heq =>
          obtain rfl := Option.some.inj hlookup
          exact .inr ⟨hentries entry List.mem_cons_self, heq.symm, rfl, rfl, rfl⟩
        · exact .inl hlookup
      · exact .inr hrecord
    · rcases List.mem_cons.mp hmem with rfl | hmem
      · exact hkept _ (Finmap.mem_insert.mpr (.inl rfl))
      · exact hrest other hmem

theorem TxIndexed.indexBlock (h : TxIndexed blocks index.txIndex) (block : Block) :
    TxIndexed (blocks ++ [block]) (indexBlock index block).txIndex := by
  have hentries : ∀ entry ∈ block.transactions.zipIdx, block.transactions[entry.2]? = some entry.1 :=
    fun entry hmem => List.mk_mem_zipIdx_iff_getElem?.mp hmem
  obtain ⟨hrecorded, hkept, hnew⟩ := @txIndex_foldl _ block _ _ hentries (index, 0) _ rfl rfl
  constructor
  · intro hash record hlookup
    rcases hrecorded hash record hlookup with hlookup | hrecord
    · obtain ⟨found, hmem, hrecord⟩ := h.recorded hash record hlookup
      exact ⟨found, List.mem_append_left _ hmem, hrecord⟩
    · exact ⟨block, List.mem_append_right _ (List.mem_singleton_self _), hrecord⟩
  · intro found hmem tx htx
    rcases List.mem_append.mp hmem with hmem | hmem
    · exact hkept _ (h.complete found hmem tx htx)
    · obtain rfl := List.mem_singleton.mp hmem
      obtain ⟨i, hi⟩ := List.mem_iff_getElem?.mp htx
      exact hnew (tx, i) (List.mk_mem_zipIdx_iff_getElem?.mpr hi)

theorem txIndexed_rebuildTxIndex (blocks : List Block) : TxIndexed blocks (rebuildTxIndex blocks).txIndex := by
  induction blocks using List.reverseRecOn with
  | nil => exact ⟨fun _ _ h => absurd h (by simp [rebuildTxIndex]), fun _ h => absurd h List.not_mem_nil⟩
  | append_singleton blocks block ih =>
    have hconcat : rebuildTxIndex (blocks ++ [block]) = indexBlock (rebuildTxIndex blocks) block := by
      rw [rebuildTxIndex, List.foldl_append]
      rfl
    rw [hconcat]
    exact ih.indexBlock block

end Records

/-! ### Events -/

section Events

variable [Primitives] {n : LabNode} {blocks : List Block} {filter : EventFilter}

omit [Primitives] in
/-- Items are kept or dropped together with what they come from. -/
theorem filter_flatMap_of {α β : Type} {f : α → List β} {p : β → Bool} {q : α → Bool} (l : List α)
    (h : ∀ a ∈ l, ∀ b ∈ f a, p b = q a) : (l.flatMap f).filter p = (l.filter q).flatMap f := by
  induction l with
  | nil => rfl
  | cons a l ih =>
    rw [List.flatMap_cons, List.filter_append, ih fun b hb => h b (List.mem_cons_of_mem _ hb)]
    have hall := h a List.mem_cons_self
    cases hq : q a with
    | true =>
      rw [List.filter_cons_of_pos hq, List.flatMap_cons, List.filter_eq_self.mpr fun b hb => (hall b hb).trans hq]
    | false =>
      rw [List.filter_cons_of_neg (by simp [hq]), List.filter_eq_nil_iff.mpr fun b hb => by simp [hall b hb, hq],
        List.nil_append]

/-- Blocks of different heights, from the last one on: the loop finds the records of each together. -/
theorem newestFirst_flatMap (blocks : List Block) (h : blocks.Pairwise fun a b => a.header.height ≠ b.header.height) :
    newestFirst (blocks.flatMap fun block => (blockEvents block).reverse) = blocks.flatMap blockEvents := by
  induction blocks with
  | nil => exact newestFirst.eq_1
  | cons block blocks ih =>
    obtain ⟨hothers, hrest⟩ := List.pairwise_cons.mp h
    have hafter : ∀ record ∈ blocks.flatMap fun block => (blockEvents block).reverse,
        record.blockHeight ≠ block.header.height := by
      intro record hmem
      obtain ⟨other, hother, hrecord⟩ := List.mem_flatMap.mp hmem
      rw [blockHeight_blockEvents (List.mem_reverse.mp hrecord)]
      exact (hothers other hother).symm
    rw [List.flatMap_cons, List.flatMap_cons]
    generalize (blocks.flatMap fun block => (blockEvents block).reverse) = later at ih hafter ⊢
    cases hrecords : (blockEvents block).reverse with
    | nil =>
      rw [List.reverse_eq_nil_iff.mp hrecords]
      exact ih hrest
    | cons last before =>
      have hheight : ∀ record ∈ last :: before, record.blockHeight = block.header.height := fun record hmem =>
        blockHeight_blockEvents (List.mem_reverse.mp (hrecords ▸ hmem))
      have hlast := hheight last List.mem_cons_self
      have hbefore : ∀ record ∈ before, decide (record.blockHeight = last.blockHeight) = true := fun record hmem =>
        decide_eq_true ((hheight record (List.mem_cons_of_mem _ hmem)).trans hlast.symm)
      have hnot : ∀ record ∈ later, ¬decide (record.blockHeight = last.blockHeight) = true := by
        intro record hmem hsame
        exact hafter record hmem ((of_decide_eq_true hsame).trans hlast)
      have htake : (later.takeWhile fun record => decide (record.blockHeight = last.blockHeight)) = [] := by
        rw [List.takeWhile_eq_nil_iff]
        exact fun hl => hnot _ (List.getElem_mem hl)
      have hdrop : (later.dropWhile fun record => decide (record.blockHeight = last.blockHeight)) = later := by
        rw [List.dropWhile_eq_self_iff]
        exact fun hl => hnot _ (List.getElem_mem hl)
      rw [List.cons_append, newestFirst, List.takeWhile_append_of_pos hbefore, htake, List.append_nil,
        List.dropWhile_append_of_pos hbefore, hdrop, ih hrest, ← hrecords, List.reverse_reverse]

theorem pairwise_blockHeight (hheights : blocks.Pairwise fun a b => a.header.height < b.header.height) :
    (blocks.flatMap blockEvents).Pairwise fun a b => a.blockHeight ≤ b.blockHeight := by
  rw [List.pairwise_flatMap]
  constructor
  · intro block _
    apply List.pairwise_of_forall_mem_list
    intro left hleft right hright
    rw [blockHeight_blockEvents hleft, blockHeight_blockEvents hright]
    exact UInt64.le_refl _
  · refine hheights.imp fun {left right} hlt record hrecord other hother => ?_
    rw [blockHeight_blockEvents hrecord, blockHeight_blockEvents hother]
    exact UInt64.le_of_lt hlt

omit [Primitives] in
/-- The canonical blocks in the range of a filter, in the order in which it asks for them. -/
def LabNode.asked (n : LabNode) (filter : EventFilter) : List Block :=
  let inRange := n.blocks.filter fun block =>
    filter.fromBlock ≤ block.header.height ∧ block.header.height ≤ n.lastBlock filter
  if filter.descending = true then inRange.reverse else inRange

/-- What `Events` answers where the index is that of the canonical chain. -/
theorem events_eq (hindex : n.index = rebuildTxIndex n.blocks)
    (hheights : n.blocks.Pairwise fun a b => a.header.height < b.header.height) (filter : EventFilter) :
    n.events filter =
      filter.limited ((n.asked filter).flatMap fun block => (blockEvents block).filter (n.accepts filter)) := by
  unfold LabNode.events LabNode.asked
  by_cases hempty : n.lastBlock filter < filter.fromBlock
  · have hnone : (n.blocks.filter fun block => decide (filter.fromBlock ≤ block.header.height ∧
        block.header.height ≤ n.lastBlock filter)) = [] := by
      rw [List.filter_eq_nil_iff]
      intro block _ hrange
      obtain ⟨hlow, hhigh⟩ := of_decide_eq_true hrange
      exact absurd hempty (UInt64.not_lt.mpr (UInt64.le_trans hlow hhigh))
    simp only [if_pos hempty, hnone, List.reverse_nil, ite_self, List.flatMap_nil, EventFilter.limited, List.take_nil]
  · rw [if_neg hempty, hindex, eventIndex_rebuildTxIndex]
    have hsorted := pairwise_blockHeight hheights
    have hlower : (n.blocks.flatMap blockEvents).Pairwise fun a b =>
        decide (a.blockHeight ≥ filter.fromBlock) = true → decide (b.blockHeight ≥ filter.fromBlock) = true :=
      hsorted.imp fun hle hlow => decide_eq_true (UInt64.le_trans (of_decide_eq_true hlow) hle)
    have hupper : (n.blocks.flatMap blockEvents).Pairwise fun a b =>
        decide (a.blockHeight > n.lastBlock filter) = true → decide (b.blockHeight > n.lastBlock filter) = true :=
      hsorted.imp fun hle hhigh => decide_eq_true (UInt64.lt_of_lt_of_le (of_decide_eq_true hhigh) hle)
    have hwindow := window_eq_filter hlower hupper fun record hhigh => decide_eq_true
      (UInt64.le_trans (UInt64.not_lt.mp hempty) (UInt64.le_of_lt (of_decide_eq_true hhigh)))
    have hrange : ∀ block ∈ n.blocks, ∀ record ∈ blockEvents block,
        (decide (record.blockHeight ≥ filter.fromBlock) && !decide (record.blockHeight > n.lastBlock filter)) =
          decide (filter.fromBlock ≤ block.header.height ∧ block.header.height ≤ n.lastBlock filter) := by
      intro block _ record hrecord
      rw [blockHeight_blockEvents hrecord, Bool.decide_and, ← decide_not]
      simp only [ge_iff_le, gt_iff_lt, UInt64.not_lt]
    have hblocks := filter_flatMap_of n.blocks hrange
    dsimp only
    rw [hwindow, hblocks]
    split
    · rw [List.reverse_flatMap, Function.comp_def, newestFirst_flatMap _ ?_, List.filter_flatMap]
      refine List.pairwise_reverse.mpr ((hheights.sublist List.filter_sublist).imp fun hlt => ?_)
      exact (UInt64.ne_of_lt hlt).symm
    · rw [List.filter_flatMap]

end Events

/-! ### The index over runs -/

section Runs

variable [Primitives] {setup : Setup} {world : World} {n n' : LabNode} {headers : List BlockHeader} {block old : Block}

/-- The indexes are those of the canonical chain, and the known blocks carry transactions of listed types only. -/
structure LabNode.Indexed (n : LabNode) : Prop where
  index : n.index = rebuildTxIndex n.blocks
  listed : ∀ blockHash block, n.knownBlocks.lookup blockHash = some block → block.Listed

/-- An index that is built block by block does not see the certificate of a block. -/
theorem foldl_indexBlock_set (certificate : Option FinalityCertificate) (blocks : List Block) (index : ChainIndex) (i : Nat)
    (hi : blocks[i]? = some old) :
    (blocks.set i { old with finalityCertificate := certificate }).foldl indexBlock index =
      blocks.foldl indexBlock index := by
  induction blocks generalizing index i with
  | nil => rfl
  | cons first rest ih =>
    cases i with
    | zero =>
      obtain rfl := Option.some.inj hi
      rfl
    | succ i =>
      rw [List.set_cons_succ, List.foldl_cons, List.foldl_cons]
      exact ih _ i hi

theorem rebuildTxIndex_set {blocks : List Block} {i : Nat} (hi : blocks[i]? = some old)
    (hbody : block = { old with finalityCertificate := block.finalityCertificate }) :
    rebuildTxIndex (blocks.set i block) = rebuildTxIndex blocks := by
  rw [hbody]
  exact foldl_indexBlock_set _ blocks {} i hi

omit [Primitives] in
theorem listed_of_body (h : old.Listed)
    (hbody : block = { old with finalityCertificate := block.finalityCertificate }) : block.Listed := by
  rw [hbody]
  exact h

theorem LabNode.Indexed.insert (h : n.Indexed) (hlisted : block.Listed) (blockHash : String) :
    ∀ other found, (n.knownBlocks.insert blockHash block).lookup other = some found → found.Listed := by
  intro other found hfound
  rw [GoMap.lookup_insert_if] at hfound
  split at hfound
  · obtain rfl := Option.some.inj hfound
    exact hlisted
  · exact h.listed other found hfound

theorem LabNode.Indexed.congr (h : n.Indexed) (hindex : n'.index = n.index) (hblocks : n'.blocks = n.blocks)
    (hknown : n'.knownBlocks = n.knownBlocks) : n'.Indexed :=
  ⟨by rw [hindex, hblocks, h.index], by rw [hknown]; exact h.listed⟩

theorem LabNode.Indexed.noted (h : n.Indexed) (hnoted : Noted setup n n') : n'.Indexed := by
  obtain ⟨⟨_, _, _, _, _, _, _, rfl⟩, -⟩ := hnoted
  exact h.congr rfl rfl rfl

theorem LabNode.Indexed.stalled (h : n.Indexed) (hstalled : Stalled n n') : n'.Indexed := by
  obtain ⟨_, _, _, rfl⟩ := hstalled
  exact h.congr rfl rfl rfl

/-- The block that an import installs has the body of the one it was given. -/
theorem installed_body {installed parent : Block} {parentState after : Store} (h : n.Indexed)
    (hfresh : ∀ existing, n.knownBlocks.lookup block.hash = some existing →
      mergeKnownBlock parent parentState existing block = .ok (some installed))
    (hown : block.hash ∉ n.knownBlocks → installed = block)
    (hvalid : LabNode.validateBlockOnState setup parent parentState block = .ok after) :
    installed.Listed ∧ ∀ existing, n.knownBlocks.lookup block.hash = some existing →
      installed = { existing with finalityCertificate := installed.finalityCertificate } := by
  have hlisted := validateBlockOnState_listed hvalid
  have hbody : ∀ existing, n.knownBlocks.lookup block.hash = some existing →
      installed = { existing with finalityCertificate := installed.finalityCertificate } := fun existing hexisting =>
    mergeKnownBlock_body (h.listed _ _ hexisting) hlisted (hfresh existing hexisting)
  refine ⟨?_, hbody⟩
  cases hlookup : n.knownBlocks.lookup block.hash with
  | none => exact hown (Finmap.lookup_eq_none.mp hlookup) ▸ hlisted
  | some existing => exact listed_of_body (h.listed _ _ hlookup) (hbody existing hlookup)

theorem Installed.indexed (hchain : n.OnChain headers) (h : n.Indexed) (hlisted : block.Listed)
    (hbody : ∀ existing, n.knownBlocks.lookup block.hash = some existing →
      block = { existing with finalityCertificate := block.finalityCertificate })
    (hinstalled : Installed setup world n block n') : n'.Indexed := by
  obtain ⟨-, noted, change, hnoted, hchange, hstalled⟩ := hinstalled
  have hwith : (withBlock n block).index = n.index := by
    unfold withBlock
    split
    · rfl
    · rfl
  have hfields : noted.index = n.index ∧ noted.blocks = n.blocks ∧
      noted.knownBlocks = n.knownBlocks.insert block.hash block := by
    obtain ⟨⟨_, _, _, _, _, _, _, rfl⟩, -⟩ := hnoted
    exact ⟨hwith, blocks_withBlock n block, knownBlocks_withBlock n block⟩
  obtain ⟨hindex, hblocks, hknown⟩ := hfields
  have hinserted := h.insert hlisted block.hash
  rw [← hknown] at hinserted
  have happlied : (applyChange noted change).Indexed := by
    unfold canonicalChange at hchange
    split at hchange
    · simp only [bind_ok, pure_eq_ok, Except.ok.injEq] at hchange
      obtain ⟨⟨chain, working, mempool, queued⟩, -, rfl⟩ := hchange
      exact ⟨rfl, hinserted⟩
    · split at hchange
      · next hcertified =>
        obtain rfl := Except.ok.inj hchange
        obtain ⟨-, found, hfound, hhash⟩ := hcertified
        rw [hblocks] at hfound
        have hfound : n.blocks[block.header.height.toNat]? = some found := hfound
        have hexisting := hchain.path.known _ _ hfound
        rw [hhash] at hexisting
        refine ⟨?_, hinserted⟩
        change noted.index = rebuildTxIndex (noted.blocks.set block.header.height.toNat block)
        rw [hindex, hblocks, rebuildTxIndex_set hfound (hbody found hexisting), h.index]
      · obtain rfl := Except.ok.inj hchange
        exact ⟨by rw [applyChange, hindex, hblocks, h.index], hinserted⟩
  exact happlied.stalled hstalled

theorem Voted.indexed {vote : FinalitySignature} (hchain : n.OnChain headers) (h : n.Indexed)
    (hvoted : Voted setup n vote n') : n'.Indexed := by
  have hcast : ∀ {block : Block} {recorded : LabNode}, recorded = n ∨ recorded = indexVote block vote n →
      Noted setup n (castVote block vote recorded) := by
    rintro block recorded (rfl | rfl)
    · exact ⟨⟨_, _, _, _, _, _, _, rfl⟩, .refl⟩
    · exact ⟨⟨_, _, _, _, _, _, _, rfl⟩, .refl⟩
  cases hvoted with
  | counted _ _ hfirst hstalled => exact h.noted ((hcast hfirst).trans (.of_stalled hstalled))
  | @certified block certified _ recorded _ _ hmatched hfirst hcertified hvalid hstalled =>
    have hbody : certified = { block with finalityCertificate := certified.finalityCertificate } := by
      rw [hcertified, certifiedBlock]
    obtain ⟨i, hi⟩ := List.mem_iff_getElem?.mp (mem_of_matchFinalityVote hmatched)
    have hheader : certified.header = block.header := by rw [hbody]
    have hindex : certified.header.height.toNat = i := hheader ▸ hchain.path.height _ _ hi
    have hrecorded := h.noted (hcast hfirst)
    have hcastIndex : (castVote block vote recorded).index = n.index := by
      obtain ⟨⟨_, _, _, _, _, _, _, hfields⟩, -⟩ := hcast hfirst
      rw [hfields]
    refine LabNode.Indexed.stalled ?_ hstalled
    refine ⟨?_, hrecorded.insert (listed_of_body (h.listed _ _ (hchain.path.known _ _ hi)) hbody) _⟩
    change (castVote block vote recorded).index = rebuildTxIndex (n.blocks.set certified.header.height.toNat certified)
    rw [hcastIndex, hindex, rebuildTxIndex_set hi hbody, h.index]

theorem Moves.indexed (hchain : n.OnChain headers) (h : n.Indexed) (hmoves : Moves setup world n n') : n'.Indexed := by
  cases hmoves with
  | @rests heights _ hnoted =>
    have hcounts : LabNode.Indexed { n with knownBlockHeights := heights } := h.congr rfl rfl rfl
    exact hcounts.noted hnoted
  | @produced block working mempool queued _ hdrafted hstalled =>
    have hpublished : (published n block working mempool queued).Indexed := by
      refine ⟨?_, h.insert hdrafted.listed _⟩
      change indexBlock n.index block = rebuildTxIndex (n.blocks ++ [block])
      rw [h.index, rebuildTxIndex, rebuildTxIndex, List.foldl_append]
      rfl
    exact hpublished.stalled hstalled
  | imported himported =>
    cases himported with
    | nothing => exact h
    | installed hheader hfresh hown _ _ _ _ hvalid hchange =>
      obtain ⟨hlisted, hbody⟩ := installed_body h hfresh hown hvalid
      rw [← hash_congr hheader] at hbody
      exact hchange.indexed hchain h hlisted hbody
  | voted hvoted => exact hvoted.indexed hchain h

theorem created_indexed {start : History} (h : Created setup start) : start.node.Indexed := by
  obtain ⟨world, config, n, hnew, rfl⟩ := h
  obtain ⟨-, store, hstalled⟩ := newNode_ok hnew
  have hgenesis : (genesisNode setup store).Indexed := by
    refine ⟨rfl, fun blockHash block hlookup => ?_⟩
    rw [genesisNode, GoMap.lookup_insert_if] at hlookup
    split at hlookup
    · obtain rfl := Option.some.inj hlookup
      exact fun _ hmem => absurd hmem List.not_mem_nil
    · cases hlookup
  exact hgenesis.stalled hstalled

theorem Reachable.indexed {history : History} (h : Reachable setup history) (hfree : NoCollision history.headers) :
    history.node.Indexed :=
  h.invariant (fun _ => created_indexed) (fun _ _ _ _ _ _ hsound _ hindexed hmoves =>
    hmoves.indexed hsound.chain hindexed) hfree

theorem BlockPath.heights {known : GoMap String Block} {blocks : List Block} (h : BlockPath known blocks) :
    blocks.Pairwise fun a b => a.header.height < b.header.height := by
  rw [List.pairwise_iff_getElem]
  intro i j hi hj hij
  rw [UInt64.lt_iff_toNat_lt, h.height i _ (List.getElem?_eq_getElem hi), h.height j _ (List.getElem?_eq_getElem hj)]
  exact hij

/-- In every node that calls lead to, a query of events answers from the canonical blocks in its range, in the order
that it asks for, with what it accepts of their events, up to its limit. -/
theorem events_canonical {history : History} (h : Reachable setup history) (hfree : NoCollision history.headers)
    (filter : EventFilter) :
    history.node.events filter = filter.limited
      ((history.node.asked filter).flatMap fun block => (blockEvents block).filter (history.node.accepts filter)) :=
  events_eq (h.indexed hfree).index (h.sound hfree).1.chain.path.heights filter

/-- In every node that calls lead to, a transaction is found by its hash exactly if it is on the canonical chain, and
what is found says where it is. -/
theorem transaction_canonical {history : History} (h : Reachable setup history) (hfree : NoCollision history.headers)
    (hash : String) :
    (∀ record, history.node.transaction hash = some record →
      ∃ block, history.node.block record.blockHeight = some block ∧ Recorded block hash record) ∧
    (history.node.transaction hash = none ↔
      ∀ block ∈ history.node.blocks, ∀ tx ∈ block.transactions, tx.hash ≠ hash) := by
  have hindexed := txIndexed_rebuildTxIndex history.node.blocks
  rw [← (h.indexed hfree).index] at hindexed
  have hpath := (h.sound hfree).1.chain.path
  refine ⟨fun record hrecord => ?_, fun hnone block hblock tx htx heq => ?_, fun habsent => ?_⟩
  · obtain ⟨block, hmem, hrecorded⟩ := hindexed.recorded hash record hrecord
    obtain ⟨i, hi⟩ := List.mem_iff_getElem?.mp hmem
    refine ⟨block, ?_, hrecorded⟩
    rw [LabNode.block, hrecorded.height, hpath.height i block hi, hi]
  · exact Finmap.lookup_eq_none.mp hnone (heq ▸ hindexed.complete block hblock tx htx)
  · by_contra hfound
    obtain ⟨record, hrecord⟩ := Option.ne_none_iff_exists'.mp hfound
    obtain ⟨block, hblock, hrecorded⟩ := hindexed.recorded hash record hrecord
    exact habsent block hblock _ (List.mem_of_getElem? hrecorded.place) hrecorded.hash

end Runs

section Lab

attribute [local instance] checksumPrimitives

/-- The events of transfers. -/
def transferEvents : EventFilter := { topic0 := keccakHex (utf8Bytes (runes "transfer")) }

theorem labProduced_indexed :
    (labProduced.node.events {}).map (fun record => record.event.type) =
      ["contract.deployed", "counter.initialized", "transfer"] ∧
    (labProduced.node.events transferEvents).map (fun record => record.event.type) = ["transfer"] ∧
    (labProduced.node.transaction (sendSeven 1).hash).isSome = true ∧
    labProduced.node.transaction (sendSeven 2).hash = none := by
  decide +kernel

theorem labProduced_free : NoCollision labProduced.headers :=
  run_free (labCertified_called.trans labPending_called) lab_ran.1.1

theorem events_canonical_lab :
    (labProduced.node.events transferEvents).map (fun record => record.event.type) = ["transfer"] ∧
    labProduced.node.events transferEvents = transferEvents.limited ((labProduced.node.asked transferEvents).flatMap
      fun block => (blockEvents block).filter (labProduced.node.accepts transferEvents)) :=
  ⟨labProduced_indexed.2.1, events_canonical labProduced_reachable labProduced_free transferEvents⟩

/-- The transfer of the block is found, the next one is not. -/
theorem transaction_canonical_lab :
    (∃ record block, labProduced.node.transaction (sendSeven 1).hash = some record ∧
      labProduced.node.block record.blockHeight = some block ∧ Recorded block (sendSeven 1).hash record) ∧
    ∀ block ∈ labProduced.node.blocks, ∀ tx ∈ block.transactions, tx.hash ≠ (sendSeven 2).hash := by
  obtain ⟨-, -, hfound, hnone⟩ := labProduced_indexed
  obtain ⟨record, hrecord⟩ := Option.isSome_iff_exists.mp hfound
  have hcanonical := transaction_canonical labProduced_reachable labProduced_free
  obtain ⟨block, hblock⟩ := (hcanonical (sendSeven 1).hash).1 record hrecord
  exact ⟨⟨record, block, hrecord, hblock⟩, (hcanonical (sendSeven 2).hash).2.mp hnone⟩

end Lab

end ChainLab.Node
