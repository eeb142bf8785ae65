import ChainLab.Lib.JsonSize
import ChainLab.Node.Queries
import ChainLab.Rpc.LogFilter

/-! Log queries. The node's index is searched up to one record more than an answer may hold; the answer is still complete,
and the document that carries it keeps the size limit. -/

namespace ChainLab.Rpc

open ChainLab.Lib ChainLab.Types ChainLab.Crypto ChainLab.Node

def maxLogBlockRange : UInt64 := 10000
def maxLogResults : Nat := 1000
def maxLogResponseBytes : Nat := 8 * 1024 * 1024

/-- One log of an answer, a map with fixed keys. -/
structure EvmLog where
  removed : Bool := false
  logIndex : String
  transactionIndex : String
  transactionHash : String
  blockHash : String
  blockNumber : String
  address : String
  data : String
  topics : List String
  deriving DecidableEq

/-- The keys of a map are written in order. -/
def EvmLog.json (log : EvmLog) : JsonText :=
  jsonObject [jsonField "address" (jsonString log.address), jsonField "blockHash" (jsonString log.blockHash),
    jsonField "blockNumber" (jsonString log.blockNumber), jsonField "data" (jsonString log.data),
    jsonField "logIndex" (jsonString log.logIndex), jsonField "removed" (jsonBool log.removed),
    jsonField "topics" (jsonArray (log.topics.map jsonString)),
    jsonField "transactionHash" (jsonString log.transactionHash),
    jsonField "transactionIndex" (jsonString log.transactionIndex)]

def logsJson (logs : List EvmLog) : JsonText := jsonArray (logs.map EvmLog.json)

/-- `eventData`. The attributes of a log's event are never nil, which `encoding/json` would write as `null`. -/
def eventData (event : Event) : String :=
  String.ofList ('0' :: 'x' :: hexEncode (utf8Bytes (jsonMap jsonString event.attributes)))

/-- `evmEventLog`. -/
def evmEventLog (record : EventRecord) (topics : List String) : EvmLog :=
  { logIndex := quantity record.logIndex, transactionIndex := quantity (UInt64.ofNat record.transactionIndex)
    transactionHash := record.transactionHash, blockHash := record.blockHash, blockNumber := quantity record.blockHeight
    address := toLower record.address, data := eventData record.event, topics }

/-- `logMatchesFilter`. -/
def logMatchesFilter (log : EvmLog) (topics : List String) (filter : LogFilter) : Bool :=
  eventMatchesLogFilter log.address topics filter

def tooManyBytes : GoError := newError ("log query response exceeds " ++ itoa maxLogResponseBytes ++ " bytes")

structure EvmLogCollector where
  logs : List EvmLog := []
  responseBytes : Nat := 2
  byteLimit : Nat

/-- `append` of the collector. -/
def EvmLogCollector.append (collector : EvmLogCollector) (log : EvmLog) : Result EvmLogCollector := do
  refuseIf (collector.logs.length = maxLogResults)
    (newError ("log query returned more than " ++ itoa maxLogResults ++ " results"))
  let separatorBytes := if collector.logs.length > 0 then 1 else 0
  let encodedBytes := jsonSize log.json + separatorBytes
  refuseIf (collector.byteLimit < collector.responseBytes ∨ encodedBytes > collector.byteLimit - collector.responseBytes)
    tooManyBytes
  pure { collector with responseBytes := collector.responseBytes + encodedBytes, logs := collector.logs ++ [log] }

/-- The values of a set in their order. -/
def ascending {α : Type} [LinearOrder α] (set : Finset α) : List α := set.sort

/-- `logFilterAddresses`. -/
def logFilterAddresses (filter : LogFilter) : List String := ascending (members filter.addresses)

/-- `logFilterTopic0s`. -/
def logFilterTopic0s (filter : LogFilter) : List String :=
  match filter.topics with
  | [] => []
  | first :: _ => if first.any then [] else ascending (members first.allowed)

/-- What a log query asks the node for. -/
def LogFilter.eventFilter (filter : LogFilter) : EventFilter :=
  { fromBlock := filter.fromBlock, toBlock := filter.toBlock, hasToBlock := true
    addresses := logFilterAddresses filter, requireAddress := true, topic0s := logFilterTopic0s filter
    limit := maxLogResults + 1 }

/-- One round of the loop of `evmLogsWithByteLimit`. -/
def collect (filter : LogFilter) (collector : EvmLogCollector) (record : EventRecord) : Result EvmLogCollector :=
  if record.address = "" then pure collector
  else
    let topics := [record.topic0]
    let log := evmEventLog record topics
    if logMatchesFilter log topics filter then collector.append log else pure collector

/-- `evmLogsWithByteLimit`. -/
def evmLogsWithByteLimit (n : LabNode) (filter : LogFilter) (responseByteLimit : Nat) : Result (List EvmLog) := do
  refuseIf (responseByteLimit < 2) tooManyBytes
  if filter.toBlock < filter.fromBlock then pure []
  else
    refuseIf (filter.toBlock - filter.fromBlock ≥ maxLogBlockRange)
      (newError ("log query block range exceeds " ++ formatUint maxLogBlockRange ++ " blocks"))
    let collector ← (n.events filter.eventFilter).foldlM (collect filter) { byteLimit := responseByteLimit }
    pure collector.logs

/-- The encoding of an `rpcResponse` with a result, for a request id that may be missing. -/
def responseJson (id : Option JsonText) (result : JsonText) : JsonText :=
  jsonObject [id.map (("id", ·)), jsonField "result" result]

/-- `logResultByteBudget`. -/
def logResultByteBudget (id : Option JsonText) : Result Nat := do
  let envelopeBytes := jsonSize (responseJson id (logsJson [])) - 2 + 1
  refuseIf (envelopeBytes > maxLogResponseBytes - 2) tooManyBytes
  pure (maxLogResponseBytes - envelopeBytes)

/-- The `eth_getLogs` request. -/
def ethGetLogs (n : LabNode) (tags : BlockTags) (id : Option JsonText) (params : List JsonValue) :
    Result (List EvmLog) := do
  let value ← require params.head? (newError "filter is required")
  let filter ← parseLogFilter tags value
  let responseByteLimit ← logResultByteBudget id
  evmLogsWithByteLimit n filter responseByteLimit

section Blocks

variable [Primitives]

/-- `eventTopics`. -/
def eventTopics (event : Event) : List String := [keccakHex (utf8Bytes (runes event.type))]

/-- The log that `evmBlockLogsUnfiltered` makes of an event. -/
def blockLog (block : Block) (entry : Transaction × Nat) (address : String) (blockLogIndex : UInt64) (event : Event) :
    EvmLog :=
  { logIndex := quantity blockLogIndex, transactionIndex := quantity (UInt64.ofNat entry.2)
    transactionHash := entry.1.hash, blockHash := block.hash, blockNumber := quantity block.header.height
    address := toLower address, data := eventData event, topics := eventTopics event }

/-- One round of the inner loop of `evmBlockLogsUnfiltered`. -/
def addBlockLog (block : Block) (entry : Transaction × Nat) (address : String) (state : List EvmLog × UInt64)
    (event : Event) : List EvmLog × UInt64 :=
  (state.1 ++ [blockLog block entry address state.2 event], state.2 + 1)

/-- One round of the outer loop of `evmBlockLogsUnfiltered`. -/
def transactionLogs (block : Block) (state : List EvmLog × UInt64) (entry : Transaction × Nat) : List EvmLog × UInt64 :=
  match block.receipts[entry.2]? with
  | none => state
  | some receipt =>
    let address := eventSourceAddress entry.1 receipt
    if address = "" then state else receipt.events.foldl (addBlockLog block entry address) state

/-- `evmBlockLogsUnfiltered`. -/
def evmBlockLogsUnfiltered (block : Block) : List EvmLog :=
  (block.transactions.zipIdx.foldl (transactionLogs block) ([], 0)).1

/-- `evmBlockLogs`. -/
def evmBlockLogs (block : Block) (filter : LogFilter) : List EvmLog :=
  let logs := evmBlockLogsUnfiltered block
  if (members filter.addresses).card = 0 ∧ filter.topics.length = 0 then logs
  else logs.filter fun log => logMatchesFilter log log.topics filter

end Blocks

/-! ### The collector -/

section Collector

variable {collector final : EvmLogCollector} {log : EvmLog}

theorem jsonSize_logsJson_concat (logs : List EvmLog) (log : EvmLog) :
    jsonSize (logsJson (logs ++ [log])) =
      jsonSize (logsJson logs) + (jsonSize log.json + if logs.length > 0 then 1 else 0) := by
  simp only [logsJson, jsonSize_jsonArray, List.map_append, List.sum_append, List.length_append, List.length_map,
    List.map_cons, List.map_nil, List.sum_cons, List.sum_nil, List.length_cons, List.length_nil]
  split
  · omega
  · omega

theorem two_le_jsonSize_logsJson (logs : List EvmLog) : 2 ≤ jsonSize (logsJson logs) := by
  rw [logsJson, jsonSize_jsonArray]
  omega

/-- The count of a collector is the size of the document that its logs make, within its limits. -/
structure EvmLogCollector.Counted (collector : EvmLogCollector) : Prop where
  bytes : collector.responseBytes = jsonSize (logsJson collector.logs)
  results : collector.logs.length ≤ maxLogResults
  fits : collector.responseBytes ≤ collector.byteLimit

/-- The collector of the logs in full. -/
def EvmLogCollector.holding (collector : EvmLogCollector) (logs : List EvmLog) : EvmLogCollector :=
  { collector with logs, responseBytes := jsonSize (logsJson logs) }

theorem append_ok (h : collector.Counted) :
    collector.append log = .ok final ↔ (collector.logs ++ [log]).length ≤ maxLogResults ∧
      jsonSize (logsJson (collector.logs ++ [log])) ≤ collector.byteLimit ∧
      final = collector.holding (collector.logs ++ [log]) := by
  have hresults := h.results
  have hfits := h.fits
  simp only [EvmLogCollector.append, bind_ok, refuseIf_ok, exists_const, pure_eq_ok, Except.ok.injEq,
    EvmLogCollector.holding, jsonSize_logsJson_concat, List.length_append, List.length_singleton, ← h.bytes]
  constructor
  · rintro ⟨hcount, hroom, rfl⟩
    exact ⟨by omega, by omega, rfl⟩
  · rintro ⟨hcount, hroom, rfl⟩
    exact ⟨by omega, by omega, rfl⟩

theorem counted_holding {logs : List EvmLog} (hresults : logs.length ≤ maxLogResults)
    (hfits : jsonSize (logsJson logs) ≤ collector.byteLimit) : (collector.holding logs).Counted :=
  ⟨rfl, hresults, hfits⟩

theorem jsonSize_logsJson_append_le (logs rest : List EvmLog) :
    jsonSize (logsJson logs) ≤ jsonSize (logsJson (logs ++ rest)) := by
  induction rest using List.reverseRecOn with
  | nil => rw [List.append_nil]
  | append_singleton rest log ih =>
    rw [← List.append_assoc, jsonSize_logsJson_concat]
    omega

/-- The collector takes all of its logs or fails, and it fails only where all of them together exceed a limit. -/
theorem foldlM_append_ok (logs : List EvmLog) (h : collector.Counted) :
    logs.foldlM EvmLogCollector.append collector = .ok final ↔
      (collector.logs ++ logs).length ≤ maxLogResults ∧
      jsonSize (logsJson (collector.logs ++ logs)) ≤ collector.byteLimit ∧
      final = collector.holding (collector.logs ++ logs) := by
  induction logs generalizing collector with
  | nil =>
    have hsame : collector.holding collector.logs = collector := by
      rw [EvmLogCollector.holding, ← h.bytes]
    have hfits := h.fits
    rw [h.bytes] at hfits
    rw [List.append_nil, hsame, List.foldlM_nil, pure_eq_ok, Except.ok.injEq]
    exact ⟨fun heq => ⟨h.results, hfits, heq.symm⟩, fun hall => hall.2.2.symm⟩
  | cons log rest ih =>
    have hassoc : collector.logs ++ log :: rest = (collector.logs ++ [log]) ++ rest := by simp
    rw [List.foldlM_cons, bind_ok, hassoc]
    constructor
    · rintro ⟨next, hnext, hrest⟩
      obtain ⟨hresults, hfits, rfl⟩ := (append_ok h).mp hnext
      exact (ih (counted_holding hresults hfits)).mp hrest
    · rintro ⟨hresults, hfits, rfl⟩
      have hfirst : (collector.logs ++ [log]).length ≤ maxLogResults := by
        rw [List.length_append] at hresults
        omega
      have hroom := (jsonSize_logsJson_append_le (collector.logs ++ [log]) rest).trans hfits
      exact ⟨_, (append_ok h).mpr ⟨hfirst, hroom, rfl⟩, (ih (counted_holding hfirst hroom)).mpr ⟨hresults, hfits, rfl⟩⟩

end Collector

/-! ### Which records a filter wants -/

section Wanted

variable {n : LabNode} {filter : LogFilter} {record : EventRecord}

/-- The log that stands for a record. -/
def recordLog (record : EventRecord) : EvmLog := evmEventLog record [record.topic0]

/-- The test that the loop of the query makes of a record. -/
def wanted (filter : LogFilter) (record : EventRecord) : Bool :=
  record.address ≠ "" && logMatchesFilter (recordLog record) [record.topic0] filter

theorem foldlM_collect (records : List EventRecord) (collector : EvmLogCollector) :
    records.foldlM (collect filter) collector =
      ((records.filter (wanted filter)).map recordLog).foldlM EvmLogCollector.append collector := by
  rw [List.foldlM_map, List.foldlM_filter]
  congr 1
  funext collector record
  unfold collect wanted recordLog
  by_cases haddress : record.address = ""
  · simp [haddress]
  · simp [haddress]

theorem eventMatchesLogFilter_iff {address topic : String} :
    eventMatchesLogFilter address [topic] filter = true ↔
      ((members filter.addresses).card > 0 → toLower address ∈ members filter.addresses) ∧
      ∀ i criterion, filter.topics[i]? = some criterion →
        criterion.any = true ∨ i = 0 ∧ toLower topic ∈ members criterion.allowed := by
  rw [eventMatchesLogFilter, Bool.and_eq_true, decide_eq_true_iff, List.all_eq_true]
  refine and_congr_right fun _ => ⟨fun h i criterion hcriterion => ?_, fun h entry hentry => ?_⟩
  · have hentry := h (criterion, i) (List.mk_mem_zipIdx_iff_getElem?.mpr hcriterion)
    rcases Bool.or_eq_true_iff.mp hentry with hany | htopic
    · exact .inl hany
    · cases i with
      | zero => exact .inr ⟨rfl, by simpa using htopic⟩
      | succ i => simp at htopic
  · rcases h entry.2 entry.1 (List.mk_mem_zipIdx_iff_getElem?.mp hentry) with hany | ⟨hfirst, htopic⟩
    · rw [hany, Bool.true_or]
    · simp [hfirst, htopic]

/-- The values of a set of lower-case values, as the node collects them. -/
theorem eventFilterValues_ascending {set : Finset String} (h : ∀ value ∈ set, toLower value = value) :
    eventFilterValues "" (ascending set) = set := by
  have hmap : (ascending set).map toLower = ascending set :=
    (List.map_congr_left fun value hvalue => h value ((Finset.mem_sort _).mp hvalue)).trans (List.map_id _)
  rw [eventFilterValues, if_neg (not_not.mpr rfl), hmap, ascending, Finset.sort_toFinset]

theorem accepts_iff (h : filter.Valid) :
    n.accepts filter.eventFilter record = true ↔
      (filter.fromBlock ≤ record.blockHeight ∧ record.blockHeight ≤ filter.toBlock) ∧ record.address ≠ "" ∧
      ((members filter.addresses).card > 0 → toLower record.address ∈ members filter.addresses) ∧
      ((eventFilterValues "" (logFilterTopic0s filter)).card > 0 →
        toLower record.topic0 ∈ eventFilterValues "" (logFilterTopic0s filter)) := by
  have haddresses : eventFilterValues "" (logFilterAddresses filter) = members filter.addresses :=
    eventFilterValues_ascending fun address hmem => toLower_of_validateCanonicalLogAddress (h.address address hmem)
  have hlast : n.lastBlock filter.eventFilter = filter.toBlock := rfl
  rw [LabNode.accepts, hlast]
  change eventMatchesFilter record filter.fromBlock filter.toBlock (eventFilterValues "" (logFilterAddresses filter))
    (eventFilterValues "" (logFilterTopic0s filter)) true = true ↔ _
  rw [haddresses, eventMatchesFilter]
  split
  · next hrange =>
    refine ⟨fun h => (by cases h), fun h => absurd hrange (not_or.mpr ⟨?_, ?_⟩)⟩
    · exact UInt64.not_lt.mpr h.1.1
    · exact UInt64.not_lt.mpr h.1.2
  · next hrange =>
    rw [not_or] at hrange
    have hrange : filter.fromBlock ≤ record.blockHeight ∧ record.blockHeight ≤ filter.toBlock :=
      ⟨UInt64.not_lt.mp hrange.1, UInt64.not_lt.mp hrange.2⟩
    simp only [hrange, true_and]
    split
    · next hempty => simp [hempty]
    · next hempty =>
      split
      · next hother => simp [hother]
      · next hother =>
        rw [not_and, not_not] at hother
        have hempty : record.address ≠ "" := hempty
        split
        · next htopics =>
          exact ⟨fun h => ⟨hempty, hother, fun _ => of_decide_eq_true h⟩, fun h => decide_eq_true (h.2.2 htopics)⟩
        · next htopics => exact ⟨fun _ => ⟨hempty, hother, fun hcard => absurd hcard htopics⟩, fun _ => rfl⟩

/-- A filter that some record can match: only the first position, the only topic of a record, asks for anything. -/
def LogFilter.Answerable (filter : LogFilter) : Prop :=
  ∀ i criterion, filter.topics[i]? = some criterion → criterion.any = true ∨ i = 0 ∧ members criterion.allowed ≠ ∅

theorem wanted_iff : wanted filter record = true ↔ record.address ≠ "" ∧
    ((members filter.addresses).card > 0 → toLower record.address ∈ members filter.addresses) ∧
    ∀ i criterion, filter.topics[i]? = some criterion →
      criterion.any = true ∨ i = 0 ∧ toLower record.topic0 ∈ members criterion.allowed := by
  rw [wanted, Bool.and_eq_true, decide_eq_true_iff, logMatchesFilter, eventMatchesLogFilter_iff]
  simp only [recordLog, evmEventLog, toLower_toLower]

theorem topic0s_of_first {first : TopicCriterion} (h : filter.Valid) (hfirst : filter.topics[0]? = some first)
    (hany : first.any = false) : eventFilterValues "" (logFilterTopic0s filter) = members first.allowed := by
  have hmem : first ∈ filter.topics := List.mem_of_getElem? hfirst
  cases htopics : filter.topics with
  | nil => simp [htopics] at hfirst
  | cons head rest =>
    rw [htopics] at hfirst
    obtain rfl := Option.some.inj hfirst
    rw [logFilterTopic0s, htopics]
    simp only [hany]
    exact eventFilterValues_ascending fun topic htopic => toLower_of_validateCanonicalHash (h.topic _ hmem topic htopic)

theorem topic0s_of_open (hfirst : ∀ first, filter.topics[0]? = some first → first.any = true) :
    eventFilterValues "" (logFilterTopic0s filter) = ∅ := by
  cases htopics : filter.topics with
  | nil => simp [logFilterTopic0s, htopics, eventFilterValues]
  | cons head rest =>
    have hany := hfirst head (by rw [htopics]; rfl)
    simp [logFilterTopic0s, htopics, hany, eventFilterValues]

/-- Every record that the node finds for a filter that can be answered is one that the filter wants. -/
theorem wanted_of_accepts (h : filter.Valid) (hanswerable : filter.Answerable)
    (haccepts : n.accepts filter.eventFilter record = true) : wanted filter record = true := by
  obtain ⟨-, haddress, haddresses, htopics⟩ := (accepts_iff h).mp haccepts
  refine wanted_iff.mpr ⟨haddress, haddresses, fun i criterion hcriterion => ?_⟩
  rcases hanswerable i criterion hcriterion with hany | ⟨rfl, hsome⟩
  · exact .inl hany
  · cases hany : criterion.any with
    | true => exact .inl rfl
    | false =>
      rw [topic0s_of_first h hcriterion hany] at htopics
      exact .inr ⟨rfl, htopics (Finset.card_pos.mpr (Finset.nonempty_iff_ne_empty.mpr hsome))⟩

/-- The node finds every record in the range that the filter wants. -/
theorem accepts_of_wanted (h : filter.Valid)
    (hrange : filter.fromBlock ≤ record.blockHeight ∧ record.blockHeight ≤ filter.toBlock)
    (hwanted : wanted filter record = true) : n.accepts filter.eventFilter record = true := by
  obtain ⟨haddress, haddresses, htopics⟩ := wanted_iff.mp hwanted
  refine (accepts_iff h).mpr ⟨hrange, haddress, haddresses, fun hcard => ?_⟩
  by_cases hopen : ∀ first, filter.topics[0]? = some first → first.any = true
  · rw [topic0s_of_open hopen] at hcard
    exact absurd hcard (lt_irrefl 0)
  · simp only [not_forall] at hopen
    obtain ⟨first, hfirst, hany⟩ := hopen
    rw [topic0s_of_first h hfirst (by simpa using hany)]
    rcases htopics 0 first hfirst with hopen | ⟨-, htopic⟩
    · exact absurd hopen hany
    · exact htopic

theorem answerable_of_wanted (hwanted : wanted filter record = true) : filter.Answerable := by
  obtain ⟨-, -, htopics⟩ := wanted_iff.mp hwanted
  intro i criterion hcriterion
  rcases htopics i criterion hcriterion with hany | ⟨rfl, htopic⟩
  · exact .inl hany
  · exact .inr ⟨rfl, Finset.ne_empty_of_mem htopic⟩

end Wanted

/-! ### The logs of a block -/

section Block

variable [Primitives] {block : Block} {filter : LogFilter}

/-- The logs of the events of one transaction, numbered from the next number of a log on. -/
theorem foldl_addBlockLog (entry : Transaction × Nat) (address : String) (events : List Event) (logs : List EvmLog)
    (base : UInt64) (k : Nat) :
    events.foldl (addBlockLog block entry address) (logs, base + UInt64.ofNat k) =
      (logs ++ (events.zipIdx k).map fun indexed =>
          blockLog block entry address (base + UInt64.ofNat indexed.2) indexed.1,
        base + UInt64.ofNat (k + events.length)) := by
  induction events generalizing logs k with
  | nil => simp
  | cons event events ih =>
    have hnext : base + UInt64.ofNat k + 1 = base + UInt64.ofNat (k + 1) := by
      rw [UInt64.add_assoc, UInt64.ofNat_add]
      rfl
    rw [List.foldl_cons, addBlockLog, hnext, ih, List.zipIdx_cons, List.map_cons, List.append_assoc, List.length_cons,
      Nat.add_right_comm, Nat.add_assoc k]
    rfl

/-- The records of a transaction that has an address are numbered as its logs are. -/
theorem map_recordLog_eventRecords {entry : Transaction × Nat} {receipt : Receipt} (blockLogIndex : UInt64)
    (haddress : eventSourceAddress entry.1 receipt ≠ "") :
    (eventRecords block entry.1 receipt entry.2 blockLogIndex).map recordLog = receipt.events.zipIdx.map fun indexed =>
      blockLog block entry (eventSourceAddress entry.1 receipt) (blockLogIndex + UInt64.ofNat indexed.2) indexed.1 := by
  have hlower : toLower (eventSourceAddress entry.1 receipt) ≠ "" := fun h => haddress (toLower_eq_empty.mp h)
  rw [eventRecords, List.map_map]
  refine List.map_congr_left fun indexed _ => ?_
  obtain ⟨event, i⟩ := indexed
  simp only [Function.comp_apply, if_pos hlower, recordLog, evmEventLog, toLower_toLower]
  rfl

/-- One transaction: its logs are those of its records that have an address. -/
theorem transactionLogs_eq (entry : Transaction × Nat) (logs : List EvmLog) (blockLogIndex : UInt64) :
    transactionLogs block (logs, blockLogIndex) entry =
      (logs ++ ((eventRecords block entry.1 (receiptAt block entry.2 entry.1) entry.2 blockLogIndex).filter
        fun record => record.address ≠ "").map recordLog, blockLogIndex + logsOf block entry) := by
  unfold transactionLogs logsOf
  cases hreceipt : block.receipts[entry.2]? with
  | none =>
    have hnone : receiptAt block entry.2 entry.1 = { txHash := entry.1.hash } := by rw [receiptAt, hreceipt]; rfl
    simp [hnone, eventRecords]
  | some receipt =>
    have hsome : receiptAt block entry.2 entry.1 = receipt := by rw [receiptAt, hreceipt]; rfl
    have haddresses : ∀ record ∈ eventRecords block entry.1 receipt entry.2 blockLogIndex,
        record.address = toLower (eventSourceAddress entry.1 receipt) := by
      intro record hrecord
      obtain ⟨indexed, -, rfl⟩ := List.mem_map.mp hrecord
      rfl
    simp only [hsome, ne_eq, toLower_eq_empty]
    by_cases haddress : eventSourceAddress entry.1 receipt = ""
    · have hnone : ((eventRecords block entry.1 receipt entry.2 blockLogIndex).filter
          fun record => decide (¬record.address = "")) = [] := by
        rw [List.filter_eq_nil_iff]
        intro record hrecord
        simp [haddresses record hrecord, toLower_eq_empty, haddress]
      rw [if_pos haddress, if_neg (not_not.mpr haddress), hnone]
      simp
    · have hall : ((eventRecords block entry.1 receipt entry.2 blockLogIndex).filter
          fun record => decide (¬record.address = "")) = eventRecords block entry.1 receipt entry.2 blockLogIndex := by
        rw [List.filter_eq_self]
        intro record hrecord
        simp [haddresses record hrecord, toLower_eq_empty, haddress]
      have hfold := @foldl_addBlockLog _ block entry (eventSourceAddress entry.1 receipt) receipt.events logs
        blockLogIndex 0
      have hzero : blockLogIndex + UInt64.ofNat 0 = blockLogIndex := UInt64.add_zero _
      rw [hzero, Nat.zero_add] at hfold
      rw [if_neg haddress, if_pos haddress, hall, hfold, map_recordLog_eventRecords _ haddress]

theorem foldl_transactionLogs (entries : List (Transaction × Nat)) (logs : List EvmLog) (blockLogIndex : UInt64) :
    (entries.foldl (transactionLogs block) (logs, blockLogIndex)).1 =
      logs ++ ((recordsFrom block entries blockLogIndex).filter fun record => record.address ≠ "").map recordLog := by
  induction entries generalizing logs blockLogIndex with
  | nil => simp [recordsFrom]
  | cons entry rest ih =>
    rw [List.foldl_cons, transactionLogs_eq, ih, recordsFrom, List.filter_append, List.map_append, List.append_assoc]

theorem evmBlockLogsUnfiltered_eq (block : Block) :
    evmBlockLogsUnfiltered block = ((blockEvents block).filter fun record => record.address ≠ "").map recordLog :=
  (foldl_transactionLogs _ _ _).trans (List.nil_append _)

/-- The logs of a block that a filter keeps are those of the records it wants. -/
theorem evmBlockLogs_eq (block : Block) (filter : LogFilter) :
    evmBlockLogs block filter = ((blockEvents block).filter (wanted filter)).map recordLog := by
  have hfiltered : ((evmBlockLogsUnfiltered block).filter fun log => logMatchesFilter log log.topics filter) =
      ((blockEvents block).filter (wanted filter)).map recordLog := by
    rw [evmBlockLogsUnfiltered_eq, List.filter_map, List.filter_filter]
    congr 2
    funext record
    rw [wanted, Bool.and_comm]
    rfl
  unfold evmBlockLogs
  dsimp only
  split
  · next hopen =>
    rw [← hfiltered]
    refine (List.filter_eq_self.mpr fun log _ => ?_).symm
    rw [logMatchesFilter, eventMatchesLogFilter, List.length_eq_zero_iff.mp hopen.2, Bool.and_eq_true, decide_eq_true_iff]
    exact ⟨fun hcard => absurd hopen.1 (Nat.ne_of_gt hcard), rfl⟩
  · exact hfiltered

end Block

/-! ### Queries -/

section Queries

variable [Primitives] {n : LabNode} {filter : LogFilter} {logs : List EvmLog} {limit : Nat}

/-- The logs that a filter keeps of the canonical blocks in its range. -/
def canonicalLogs (n : LabNode) (filter : LogFilter) : List EvmLog :=
  (n.blocks.filter fun block => filter.fromBlock ≤ block.header.height ∧ block.header.height ≤ filter.toBlock).flatMap
    fun block => evmBlockLogs block filter

omit [Primitives] in
/-- A test that decides alike on a whole list: what is left of the first items is what is left of all, or both are
longer than asked for. -/
theorem filter_take_of_uniform {α : Type} {p : α → Bool} {l : List α} (k : Nat)
    (h : (∀ a ∈ l, p a = true) ∨ ∀ a ∈ l, p a = false) :
    (l.take (k + 1)).filter p = l.filter p ∨
      k < ((l.take (k + 1)).filter p).length ∧ k < (l.filter p).length := by
  rcases h with hall | hnone
  · have htake : (l.take (k + 1)).filter p = l.take (k + 1) :=
      List.filter_eq_self.mpr fun a ha => hall a (List.mem_of_mem_take ha)
    rw [htake, List.filter_eq_self.mpr hall, List.length_take]
    rcases Nat.lt_or_ge k l.length with hlong | hshort
    · exact .inr ⟨by omega, hlong⟩
    · exact .inl (List.take_of_length_le (by omega))
  · left
    rw [List.filter_eq_nil_iff.mpr fun a ha => by simp [hnone a (List.mem_of_mem_take ha)],
      List.filter_eq_nil_iff.mpr fun a ha => by simp [hnone a ha]]

/-- The records that the node accepts in the range, before its limit. -/
def acceptedRecords (n : LabNode) (filter : LogFilter) : List EventRecord :=
  (n.asked filter.eventFilter).flatMap fun block => (blockEvents block).filter (n.accepts filter.eventFilter)

theorem mem_acceptedRecords {record : EventRecord} (h : record ∈ acceptedRecords n filter) :
    n.accepts filter.eventFilter record = true := by
  obtain ⟨block, -, hrecord⟩ := List.mem_flatMap.mp h
  exact (List.mem_filter.mp hrecord).2

theorem canonicalLogs_eq (h : filter.Valid) :
    canonicalLogs n filter = ((acceptedRecords n filter).filter (wanted filter)).map recordLog := by
  rw [acceptedRecords, List.filter_flatMap, List.map_flatMap]
  refine List.flatMap_congr fun block hblock => ?_
  have hrange := of_decide_eq_true (List.mem_filter.mp hblock).2
  rw [evmBlockLogs_eq, List.filter_filter]
  congr 1
  refine List.filter_congr fun record hrecord => ?_
  rw [← blockHeight_blockEvents hrecord] at hrange
  cases hwanted : wanted filter record with
  | true => rw [accepts_of_wanted h hrange hwanted, Bool.and_true]
  | false => rw [Bool.false_and]

theorem uniform_acceptedRecords (h : filter.Valid) :
    (∀ record ∈ acceptedRecords n filter, wanted filter record = true) ∨
      ∀ record ∈ acceptedRecords n filter, wanted filter record = false := by
  by_cases hanswerable : filter.Answerable
  · exact .inl fun record hrecord => wanted_of_accepts h hanswerable (mem_acceptedRecords hrecord)
  · refine .inr fun record hrecord => ?_
    by_contra hwanted
    exact hanswerable (answerable_of_wanted (by simpa using hwanted))

theorem canonicalLogs_of_empty_range (hempty : filter.toBlock < filter.fromBlock) : canonicalLogs n filter = [] := by
  rw [canonicalLogs, List.filter_eq_nil_iff.mpr, List.flatMap_nil]
  intro block _ hrange
  obtain ⟨hlow, hhigh⟩ := of_decide_eq_true hrange
  exact absurd hempty (UInt64.not_lt.mpr (UInt64.le_trans hlow hhigh))

/-- What a log query answers where the node's index is that of its chain: all logs of the range, if they keep the
limits. -/
theorem evmLogs_ok (hindex : n.index = rebuildTxIndex n.blocks)
    (hheights : n.blocks.Pairwise fun a b => a.header.height < b.header.height) (hvalid : filter.Valid) :
    evmLogsWithByteLimit n filter limit = .ok logs ↔
      (filter.toBlock < filter.fromBlock ∨ filter.toBlock - filter.fromBlock < maxLogBlockRange) ∧
      logs = canonicalLogs n filter ∧ logs.length ≤ maxLogResults ∧ jsonSize (logsJson logs) ≤ limit := by
  unfold evmLogsWithByteLimit
  simp only [bind_ok, refuseIf_ok, exists_const]
  have hnone : jsonSize (logsJson []) = 2 := by decide
  by_cases hempty : filter.toBlock < filter.fromBlock
  · rw [if_pos hempty, canonicalLogs_of_empty_range hempty]
    constructor
    · rintro ⟨hlimit, hlogs⟩
      obtain rfl := Except.ok.inj hlogs
      exact ⟨.inl hempty, rfl, Nat.zero_le _, by omega⟩
    · rintro ⟨-, rfl, -, hfits⟩
      exact ⟨by omega, rfl⟩
  · rw [if_neg hempty]
    have hrecords : n.events filter.eventFilter = (acceptedRecords n filter).take (maxLogResults + 1) :=
      events_eq hindex hheights filter.eventFilter
    have hcounted (hlimit : ¬limit < 2) : (EvmLogCollector.mk [] 2 limit).Counted :=
      ⟨hnone.symm, Nat.zero_le _, Nat.not_lt.mp hlimit⟩
    simp only [bind_ok, refuseIf_ok, exists_const, ge_iff_le, UInt64.not_le, hempty, false_or, pure_eq_ok, Except.ok.injEq]
    rw [hrecords, canonicalLogs_eq hvalid]
    constructor
    · rintro ⟨hlimit, hrange, collector, hfold, rfl⟩
      rw [foldlM_collect, foldlM_append_ok _ (hcounted hlimit)] at hfold
      obtain ⟨hresults, hfits, rfl⟩ := hfold
      rw [List.nil_append] at hresults hfits
      refine ⟨hrange, ?_, hresults, hfits⟩
      rcases filter_take_of_uniform maxLogResults (uniform_acceptedRecords hvalid) with hsame | ⟨hlong, -⟩
      · exact congrArg _ hsame
      · rw [List.length_map] at hresults
        omega
    · rintro ⟨hrange, rfl, hresults, hfits⟩
      have hlimit : ¬limit < 2 := Nat.not_lt.mpr ((two_le_jsonSize_logsJson _).trans hfits)
      rcases filter_take_of_uniform maxLogResults (uniform_acceptedRecords hvalid) with hsame | ⟨-, hlong⟩
      · refine ⟨hlimit, hrange, (EvmLogCollector.mk [] 2 limit).holding
          (((acceptedRecords n filter).filter (wanted filter)).map recordLog), ?_, rfl⟩
        rw [foldlM_collect, foldlM_append_ok _ (hcounted hlimit), List.nil_append, hsame]
        exact ⟨hresults, hfits, rfl⟩
      · rw [List.length_map] at hresults
        omega

omit [Primitives] in
/-- The document of an answer: an envelope that depends on the request only, around the logs. -/
theorem jsonSize_responseJson (id : Option JsonText) (result : JsonText) :
    jsonSize (responseJson id result) + 2 = jsonSize (responseJson id (logsJson [])) + jsonSize result := by
  have hnone : jsonSize (logsJson []) = 2 := by decide
  have hfield : ∀ text : JsonText, fieldSize (jsonField "result" text) = 9 + jsonSize text := fun text =>
    fieldSize_jsonField "result" text
  have hcount : ∀ text : JsonText, ([id.map (("id", ·)), jsonField "result" text].filter Option.isSome).length =
      if id.isSome = true then 2 else 1 := by
    intro text
    cases id with
    | none => rfl
    | some _ => rfl
  simp only [responseJson, jsonSize_jsonObject, List.map_cons, List.map_nil, List.sum_cons, List.sum_nil, hfield, hcount,
    hnone]
  omega

omit [Primitives] in
/-- The budget leaves the envelope and the newline of the encoder out of the limit. -/
theorem logResultByteBudget_covers {id : Option JsonText} {result : JsonText} (hresult : 2 ≤ jsonSize result) :
    (∃ limit, logResultByteBudget id = .ok limit ∧ jsonSize result ≤ limit) ↔
      jsonSize (responseJson id result) + 1 ≤ maxLogResponseBytes := by
  have hsize := jsonSize_responseJson id result
  have hempty : 2 ≤ jsonSize (responseJson id (logsJson [])) := by
    rw [responseJson, jsonSize_jsonObject]
    omega
  have hmax : 2 ≤ maxLogResponseBytes := by decide
  simp only [logResultByteBudget, bind_ok, refuseIf_ok, exists_const, pure_eq_ok, Except.ok.injEq]
  constructor
  · rintro ⟨limit, ⟨hfits, rfl⟩, hle⟩
    omega
  · intro hfits
    exact ⟨_, ⟨by omega, rfl⟩, by omega⟩

/-- In every node that calls lead to, `eth_getLogs` answers a filter that it accepts with all logs of the canonical blocks
in its range, in their order, or not at all; it answers exactly if the range, the number of logs and the size of the whole
response keep their limits. -/
theorem ethGetLogs_complete {setup : Setup} {history : History} (h : Reachable setup history)
    (hfree : NoCollision history.headers) (tags : BlockTags) (id : Option JsonText) (params : List JsonValue) :
    ethGetLogs history.node tags id params = .ok logs ↔ ∃ value filter, params.head? = some value ∧
      parseLogFilter tags value = .ok filter ∧
      (filter.toBlock < filter.fromBlock ∨ filter.toBlock - filter.fromBlock < maxLogBlockRange) ∧
      logs = canonicalLogs history.node filter ∧ logs.length ≤ maxLogResults ∧
      jsonSize (responseJson id (logsJson logs)) + 1 ≤ maxLogResponseBytes := by
  have hindex := (h.indexed hfree).index
  have hheights := (h.sound hfree).1.chain.path.heights
  simp only [ethGetLogs, bind_ok, require_ok]
  constructor
  · rintro ⟨value, hvalue, filter, hfilter, limit, hlimit, hlogs⟩
    obtain ⟨hrange, hall, hresults, hfits⟩ := (evmLogs_ok hindex hheights (parseLogFilter_valid hfilter)).mp hlogs
    exact ⟨value, filter, hvalue, hfilter, hrange, hall, hresults,
      (logResultByteBudget_covers (two_le_jsonSize_logsJson logs)).mp ⟨limit, hlimit, hfits⟩⟩
  · rintro ⟨value, filter, hvalue, hfilter, hrange, hall, hresults, hsize⟩
    obtain ⟨limit, hlimit, hfits⟩ := (logResultByteBudget_covers (two_le_jsonSize_logsJson logs)).mpr hsize
    exact ⟨value, hvalue, filter, hfilter, limit, hlimit,
      (evmLogs_ok hindex hheights (parseLogFilter_valid hfilter)).mpr ⟨hrange, hall, hresults, hfits⟩⟩

end Queries

section Lab

attribute [local instance] checksumPrimitives

/-- A query for the logs of new counters. -/
def newCounters : JsonValue :=
  .object [("topics", .array [.string (keccakHex (utf8Bytes (runes "counter.initialized")))])]

theorem ethGetLogs_lab :
    (ethGetLogs labProduced.node ⟨1, 1, 1⟩ none [newCounters]).toOption.map List.length = some 1 ∧
    (ethGetLogs labProduced.node ⟨1, 1, 1⟩ none [.object []]).toOption.map List.length = some 2 := by
  decide +kernel

theorem ethGetLogs_complete_lab : ∃ logs filter,
    ethGetLogs labProduced.node ⟨1, 1, 1⟩ none [newCounters] = .ok logs ∧ logs.length = 1 ∧
      parseLogFilter ⟨1, 1, 1⟩ newCounters = .ok filter ∧ logs = canonicalLogs labProduced.node filter := by
  have hcount := ethGetLogs_lab.1
  cases hlogs : ethGetLogs labProduced.node ⟨1, 1, 1⟩ none [newCounters] with
  | error err =>
    rw [hlogs] at hcount
    cases hcount
  | ok logs =>
    obtain ⟨value, filter, hvalue, hfilter, -, hall, -⟩ :=
      (ethGetLogs_complete labProduced_reachable labProduced_free _ _ _).mp hlogs
    obtain rfl := Option.some.inj hvalue
    rw [hlogs] at hcount
    exact ⟨logs, filter, rfl, Option.some.inj hcount, hfilter, hall⟩

end Lab

end ChainLab.Rpc
