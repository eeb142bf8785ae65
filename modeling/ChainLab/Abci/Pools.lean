import ChainLab.Abci.Runs

/-! The mempool of the application: its accounts are exact, its entries execute one after the other on the committed state,
rebuilding it never fails for its size, and a reap takes as much from its front as fits. -/

namespace ChainLab.Abci

open ChainLab.Lib ChainLab.Types ChainLab.Crypto ChainLab.State ChainLab.Core

/-! ### Reaping -/

section Reap

/-- What an entry takes of a block. -/
def weightOf (entries : List MempoolEntry) : Nat := (entries.map fun entry => (proposalTxSize entry.raw).toUInt64.toNat).sum

def gasWanted (entries : List MempoolEntry) : Nat := (entries.map fun entry => entry.tx.gasLimit.toNat).sum

/-- The loop takes the longest prefix that fits. -/
theorem reapLoop_longest {maxBytes maxGas : UInt64} (entries : List MempoolEntry) :
    ∀ {usedBytes usedGas : UInt64}, usedBytes ≤ maxBytes → usedGas ≤ maxGas →
      ∃ n, AppMempool.reapLoop maxBytes maxGas entries usedBytes usedGas = (entries.take n).map MempoolEntry.raw ∧
        usedBytes.toNat + weightOf (entries.take n) ≤ maxBytes.toNat ∧
        usedGas.toNat + gasWanted (entries.take n) ≤ maxGas.toNat ∧ ∀ next, entries[n]? = some next →
          maxBytes.toNat < usedBytes.toNat + weightOf (entries.take (n + 1)) ∨
          maxGas.toNat < usedGas.toNat + gasWanted (entries.take (n + 1)) := by
  induction entries with
  | nil =>
    intro usedBytes usedGas hbytes hgas
    refine ⟨0, rfl, ?_, ?_, fun _ hnext => (by cases hnext)⟩
    · exact UInt64.le_iff_toNat_le.mp hbytes
    · exact UInt64.le_iff_toNat_le.mp hgas
  | cons entry rest ih =>
    intro usedBytes usedGas hbytes hgas
    have hbytes := UInt64.le_iff_toNat_le.mp hbytes
    have hgas := UInt64.le_iff_toNat_le.mp hgas
    have hweight : ∀ n, weightOf ((entry :: rest).take (n + 1)) =
        (proposalTxSize entry.raw).toUInt64.toNat + weightOf (rest.take n) := fun n => by simp [weightOf]
    have hwanted : ∀ n, gasWanted ((entry :: rest).take (n + 1)) = entry.tx.gasLimit.toNat + gasWanted (rest.take n) :=
      fun n => by simp [gasWanted]
    have hmaxBytes := maxBytes.toNat_lt
    have hmaxGas := maxGas.toNat_lt
    unfold AppMempool.reapLoop
    dsimp only
    split
    · next hover =>
      refine ⟨0, rfl, hbytes, hgas, fun _ _ => ?_⟩
      rw [hweight, hwanted]
      simp only [gt_iff_lt, UInt64.lt_iff_toNat_lt, toNat_sub_of_covers hbytes, toNat_sub_of_covers hgas] at hover
      rcases hover with hover | hover
      · exact .inl (by omega)
      · exact .inr (by omega)
    · next hfits =>
      simp only [gt_iff_lt, not_or, UInt64.lt_iff_toNat_lt, toNat_sub_of_covers hbytes, toNat_sub_of_covers hgas,
        not_lt] at hfits
      have hnextBytes := @toNat_add_of_fits usedBytes (proposalTxSize entry.raw).toUInt64 (by omega)
      have hnextGas := @toNat_add_of_fits usedGas entry.tx.gasLimit (by omega)
      obtain ⟨n, hreaped, hweighs, hwants, hlongest⟩ := ih
        (UInt64.le_iff_toNat_le.mpr (by rw [hnextBytes]; omega)) (UInt64.le_iff_toNat_le.mpr (by rw [hnextGas]; omega))
      refine ⟨n + 1, ?_, ?_, ?_, fun next hnext => ?_⟩
      · rw [hreaped]
        rfl
      · rw [hweight]
        omega
      · rw [hwanted]
        omega
      · rw [hweight, hwanted]
        rcases hlongest next hnext with hover | hover
        · exact .inl (by omega)
        · exact .inr (by omega)

/-- The limit that a request names; zero stands for the largest one. -/
def reapLimit (limit : UInt64) : Nat := if limit = 0 then 2 ^ 64 - 1 else limit.toNat

/-- A reap returns the longest front of the mempool whose encoded bytes and gas limits together keep the limits. -/
theorem reap_longest (pool : AppMempool) (maxBytes maxGas : UInt64) :
    ∃ n, pool.reap maxBytes maxGas = (pool.entries.take n).map MempoolEntry.raw ∧
      weightOf (pool.entries.take n) ≤ reapLimit maxBytes ∧ gasWanted (pool.entries.take n) ≤ reapLimit maxGas ∧
      (n < pool.entries.length → reapLimit maxBytes < weightOf (pool.entries.take (n + 1)) ∨
        reapLimit maxGas < gasWanted (pool.entries.take (n + 1))) := by
  have hlimit : ∀ limit : UInt64, (if limit = 0 then maxUint64 else limit).toNat = reapLimit limit := by
    intro limit
    unfold reapLimit
    split
    · rfl
    · rfl
  obtain ⟨n, hreaped, hbytes, hgas, hlongest⟩ := reapLoop_longest pool.entries
    (UInt64.zero_le : (0 : UInt64) ≤ if maxBytes = 0 then maxUint64 else maxBytes)
    (UInt64.zero_le : (0 : UInt64) ≤ if maxGas = 0 then maxUint64 else maxGas)
  have hzero : (0 : UInt64).toNat = 0 := rfl
  simp only [hlimit, hzero, Nat.zero_add] at hbytes hgas hlongest
  exact ⟨n, hreaped, hbytes, hgas, fun hn => hlongest _ (List.getElem?_eq_getElem hn)⟩

end Reap

section Model

variable [Primitives] [DecodesJson Transaction]

/-- Entries that execute in order, each in a context that is admitted, and the store they lead to. -/
inductive Executes (rules : ChainRules) (admits : ExecutionContext → Prop) (base : Store) : List MempoolEntry → Store → Prop
  | none : Executes rules admits base [] base
  | next {entries : List MempoolEntry} {store after : Store} {context : ExecutionContext} {raw : List UInt8}
    {tx : Transaction} {receipt : Receipt} (before : Executes rules admits base entries store) (admitted : admits context)
    (decoded : decodeTransaction raw rules.chainID rules.blockGasLimit = .ok tx)
    (executed : Executor.executeWithContext { chainID := rules.chainID, feeCollector := "", runtime := rules.runtime }
      store tx context = (after, .ok receipt)) : Executes rules admits base (entries ++ [⟨raw, tx⟩]) after

omit [Primitives] [DecodesJson Transaction] in
/-- How many bytes the entries hold. -/
def bytesOf (entries : List MempoolEntry) : Nat := (entries.map fun entry => entry.raw.length).sum

/-- A mempool that agrees with its entries. -/
structure Coherent (rules : ChainRules) (admits : ExecutionContext → Prop) (base : Store) (pool : AppMempool) : Prop where
  ids : ∀ id, id ∈ pool.ids ↔ ∃ entry ∈ pool.entries, rawTransactionID entry.raw = id
  distinct : (pool.entries.map fun entry => rawTransactionID entry.raw).Nodup
  bytes : pool.bytes.toNat = bytesOf pool.entries
  limit : pool.bytes ≤ maxMempoolBytes
  count : pool.entries.length ≤ maxTransactionsPerBlock
  executes : Executes rules admits base pool.entries pool.working

section Pool

variable {rules : ChainRules} {admits : ExecutionContext → Prop} {base : Store} {pool pool' : AppMempool}
  {context : ExecutionContext} {raw : List UInt8} {code : UInt32}

theorem coherent_new (base : Store) : Coherent rules admits base (newAppMempool base) :=
  ⟨fun id => by simp [newAppMempool], List.nodup_nil, rfl, show (0 : UInt64) ≤ maxMempoolBytes by decide, Nat.zero_le _,
    .none⟩

theorem decodeTransaction_length {chainID : String} {blockGasLimit : UInt64} {tx : Transaction}
    (h : decodeTransaction raw chainID blockGasLimit = .ok tx) : raw.length ≤ maxTransactionBytes := by
  simp only [decodeTransaction, bind_ok, refuseIf_ok, exists_const] at h
  exact Nat.not_lt.mp h.2.1

/-- What an insertion can do: it leaves the pool, or it appends one entry that is new and fits. -/
theorem insert_cases (h : pool.insert rules context raw = .ok (pool', code)) :
    pool' = pool ∧ (code = codeOK ∨ maxTransactionsPerBlock ≤ pool.entries.length ∨
      maxMempoolBytes - pool.bytes < UInt64.ofNat raw.length) ∨
    code = codeOK ∧ rawTransactionID raw ∉ pool.ids ∧ pool.entries.length < maxTransactionsPerBlock ∧
      UInt64.ofNat raw.length ≤ maxMempoolBytes - pool.bytes ∧ ∃ tx receipt after,
        decodeTransaction raw rules.chainID rules.blockGasLimit = .ok tx ∧
        Executor.executeWithContext { chainID := rules.chainID, feeCollector := "", runtime := rules.runtime }
          pool.working tx context = (after, .ok receipt) ∧
        pool' = {
          entries := pool.entries ++ [⟨raw, tx⟩], ids := insert (rawTransactionID raw) pool.ids
          bytes := pool.bytes + UInt64.ofNat raw.length, working := after } := by
  unfold AppMempool.insert at h
  split at h
  · cases h
    exact .inl ⟨rfl, .inl rfl⟩
  · next hnew =>
    split at h
    · next hfull =>
      cases h
      exact .inl ⟨rfl, .inr (.inl hfull)⟩
    · next hroom =>
      split at h
      · next hlarge =>
        cases h
        exact .inl ⟨rfl, .inr (.inr hlarge)⟩
      · next hfits =>
        simp only [AppMempool.decodeAndExecute, bind_ok, pure_eq_ok, Except.ok.injEq, Prod.mk.injEq] at h
        obtain ⟨_, ⟨tx, htx, receipt, hreceipt, rfl⟩, rfl, rfl⟩ := h
        exact .inr ⟨rfl, hnew, Nat.not_le.mp hroom, UInt64.not_lt.mp hfits, tx, receipt, _, htx, Prod.ext rfl hreceipt, rfl⟩

omit [Primitives] [DecodesJson Transaction] in
theorem bytesOf_append (entries : List MempoolEntry) (entry : MempoolEntry) :
    bytesOf (entries ++ [entry]) = bytesOf entries + entry.raw.length := by
  simp [bytesOf]

/-- The bytes of an entry that was let in are added without a carry. -/
theorem Coherent.bytes_add (h : Coherent rules admits base pool) (hlength : raw.length ≤ maxTransactionBytes)
    (hfits : UInt64.ofNat raw.length ≤ maxMempoolBytes - pool.bytes) :
    (pool.bytes + UInt64.ofNat raw.length).toNat = bytesOf pool.entries + raw.length ∧
      pool.bytes + UInt64.ofNat raw.length ≤ maxMempoolBytes := by
  have hmax : maxMempoolBytes.toNat = 134217728 := rfl
  have hbytes : maxTransactionBytes = 2097152 := rfl
  have hlimit := UInt64.le_iff_toNat_le.mp h.limit
  have hraw : (UInt64.ofNat raw.length).toNat = raw.length := UInt64.toNat_ofNat_of_lt' (by
    change raw.length < 2 ^ 64
    omega)
  rw [UInt64.le_iff_toNat_le, hraw, toNat_sub_of_covers hlimit] at hfits
  have hsum : (pool.bytes + UInt64.ofNat raw.length).toNat = pool.bytes.toNat + raw.length := by
    rw [toNat_add_of_fits, hraw]
    rw [hraw]
    omega
  rw [UInt64.le_iff_toNat_le, hsum, ← h.bytes]
  exact ⟨rfl, by omega⟩

theorem Coherent.insert (h : Coherent rules admits base pool) (hadmits : admits context)
    (hinsert : pool.insert rules context raw = .ok (pool', code)) : Coherent rules admits base pool' := by
  rcases insert_cases hinsert with ⟨rfl, -⟩ | ⟨-, hnew, hroom, hfits, tx, receipt, after, htx, hexecuted, rfl⟩
  · exact h
  · obtain ⟨hbytes, hlimit⟩ := h.bytes_add (decodeTransaction_length htx) hfits
    refine ⟨fun id => ?_, ?_, ?_, hlimit, ?_, .next h.executes hadmits htx hexecuted⟩
    · rw [Finset.mem_insert, h.ids]
      simp only [List.mem_append, List.mem_singleton]
      constructor
      · rintro (rfl | ⟨entry, hentry, rfl⟩)
        · exact ⟨_, .inr rfl, rfl⟩
        · exact ⟨entry, .inl hentry, rfl⟩
      · rintro ⟨entry, hentry | rfl, rfl⟩
        · exact .inr ⟨entry, hentry, rfl⟩
        · exact .inl rfl
    · rw [List.map_append, List.nodup_append]
      refine ⟨h.distinct, List.nodup_singleton _, fun id hid other hother heq => hnew ?_⟩
      rw [h.ids]
      obtain ⟨entry, hentry, rfl⟩ := List.mem_map.mp hid
      exact ⟨entry, hentry, heq.trans (List.mem_singleton.mp hother)⟩
    · rw [bytesOf_append]
      exact hbytes
    · rw [List.length_append]
      exact hroom

/-- A round of the rebuild keeps the pool coherent and takes at most the entry in. -/
theorem Coherent.rebuildRound (h : Coherent rules admits base pool) (hadmits : admits context) {excluded : List String}
    {entry : MempoolEntry} (hround : AppMempool.rebuildRound rules context excluded pool entry = .ok pool') :
    Coherent rules admits base pool' ∧ pool'.entries.length ≤ pool.entries.length + 1 ∧
      bytesOf pool'.entries ≤ bytesOf pool.entries + entry.raw.length := by
  have hsame : pool' = pool → Coherent rules admits base pool' ∧ pool'.entries.length ≤ pool.entries.length + 1 ∧
      bytesOf pool'.entries ≤ bytesOf pool.entries + entry.raw.length := by
    rintro rfl
    exact ⟨h, Nat.le_succ _, Nat.le_add_right _ _⟩
  unfold AppMempool.rebuildRound at hround
  split at hround
  · exact hsame (Except.ok.inj hround).symm
  · split at hround
    · split at hround
      · cases hround
      · exact hsame (Except.ok.inj hround).symm
    · next hinsert =>
      simp only [bind_ok, refuseIf_ok, exists_const, pure_eq_ok, Except.ok.injEq] at hround
      obtain ⟨-, rfl⟩ := hround
      refine ⟨h.insert hadmits hinsert, ?_⟩
      rcases insert_cases hinsert with ⟨hkept, -⟩ | ⟨-, -, -, -, tx, receipt, after, -, -, rfl⟩
      · exact (hsame hkept).2
      · rw [List.length_append, bytesOf_append]
        exact ⟨le_rfl, le_rfl⟩

theorem coherent_rebuild (hadmits : admits context) {included : List (List UInt8)}
    (h : pool.rebuild rules context base included = .ok pool') : Coherent rules admits base pool' :=
  foldlM_keeps (Coherent rules admits base) _ (fun _ _ _ _ hbefore hround => (hbefore.rebuildRound hadmits hround).1)
    (coherent_new base) h

/-- A pool that holds no more than another one has room for each of its entries. -/
theorem rebuildRound_error {excluded : List String} {entry : MempoolEntry} {err : GoError}
    (h : Coherent rules admits base pool) (hcount : pool.entries.length < maxTransactionsPerBlock)
    (hbytes : bytesOf pool.entries + entry.raw.length ≤ maxMempoolBytes.toNat)
    (hround : AppMempool.rebuildRound rules context excluded pool entry = .error err) : isFatalExecutionError err = true := by
  unfold AppMempool.rebuildRound at hround
  split at hround
  · cases hround
  · split at hround
    · split at hround
      · next hfatal =>
        cases hround
        exact hfatal
      · cases hround
    · next next code hinsert =>
      have hcode : code = codeOK := by
        rcases insert_cases hinsert with ⟨-, hok | hfull | hlarge⟩ | ⟨hok, -⟩
        · exact hok
        · omega
        · have hmax : maxMempoolBytes.toNat = 134217728 := rfl
          have hlimit := UInt64.le_iff_toNat_le.mp h.limit
          have hraw : (UInt64.ofNat entry.raw.length).toNat = entry.raw.length := UInt64.toNat_ofNat_of_lt' (by
            change entry.raw.length < 2 ^ 64
            omega)
          rw [UInt64.lt_iff_toNat_lt, hraw, toNat_sub_of_covers hlimit, h.bytes] at hlarge
          omega
        · exact hok
      rw [hcode] at hround
      cases hround

/-- The loop of a rebuild stops with a fatal error or not at all. -/
theorem rebuild_loop_error {excluded : List String} {err : GoError} (hadmits : admits context) (entries : List MempoolEntry) :
    ∀ {pool : AppMempool}, Coherent rules admits base pool →
      pool.entries.length + entries.length ≤ maxTransactionsPerBlock →
      bytesOf pool.entries + bytesOf entries ≤ maxMempoolBytes.toNat →
      entries.foldlM (AppMempool.rebuildRound rules context excluded) pool = .error err →
      isFatalExecutionError err = true := by
  -- what is still to come fits on top of what was taken in
  induction entries with
  | nil => exact fun _ _ _ hfold => (by cases hfold)
  | cons entry rest ih =>
    intro pool h hcount hbytes hfold
    have hlength : (entry :: rest).length = rest.length + 1 := rfl
    have hsum : bytesOf (entry :: rest) = entry.raw.length + bytesOf rest := by simp [bytesOf]
    rw [List.foldlM_cons] at hfold
    cases hround : AppMempool.rebuildRound rules context excluded pool entry with
    | error stopped =>
      rw [hround] at hfold
      cases hfold
      exact rebuildRound_error h (by omega) (by omega) hround
    | ok next =>
      rw [hround] at hfold
      obtain ⟨hnext, hgrown, hgrownBytes⟩ := h.rebuildRound hadmits hround
      exact ih hnext (by omega) (by omega) hfold

theorem rebuild_error (h : Coherent rules admits base pool) {base' : Store} {included : List (List UInt8)} {err : GoError}
    (hrebuild : pool.rebuild rules context base' included = .error err) : isFatalExecutionError err = true := by
  refine @rebuild_loop_error _ _ rules (fun _ => True) base' context _ err trivial pool.entries _ (coherent_new base')
    ?_ ?_ hrebuild
  · have hcount := h.count
    change 0 + pool.entries.length ≤ maxTransactionsPerBlock
    omega
  · have hlimit := UInt64.le_iff_toNat_le.mp h.limit
    rw [h.bytes] at hlimit
    change 0 + bytesOf pool.entries ≤ maxMempoolBytes.toNat
    omega

end Pool

/-! ### Runs -/

section Runs

variable [DecodesJson GenesisDocument] {runtime : Core.Runtime} {a a' : Application}

/-- A context of the block that comes next. -/
def Application.NextBlock (a : Application) (context : ExecutionContext) : Prop :=
  context.blockHeight = (a.committed.commitment.height + 1).toUInt64 ∧
    context.baseFeePerGas = a.committed.commitment.nextBaseFeePerGas

/-- The mempool agrees with its entries, which execute on the committed store; its journal aside, which `Commit` resets
later. -/
def Pooled (runtime : Core.Runtime) (a : Application) : Prop :=
  ∃ base, base.resetMutations = a.committed.store.resetMutations ∧
    Coherent (a.rules runtime) a.NextBlock base a.mempool

omit [DecodesJson Transaction] [DecodesJson GenesisDocument] in
theorem executionContext_fields (height : Int64) (baseFeePerGas : UInt64) :
    (a.executionContext height baseFeePerGas).blockHeight = height.toUInt64 ∧
      (a.executionContext height baseFeePerGas).baseFeePerGas = baseFeePerGas := by
  unfold Application.executionContext
  split
  · exact ⟨rfl, rfl⟩
  · exact ⟨rfl, rfl⟩

omit [DecodesJson GenesisDocument] in
theorem Opened.pooled (h : Opened a) : Pooled runtime a := by
  obtain ⟨document, maxAppVersion, cometRetainHeights, load, -, hnew⟩ := h
  simp only [newApplication, bind_ok, mapError_ok, refuseIf_ok, exists_const, pure_eq_ok, Except.ok.injEq] at hnew
  obtain ⟨_, -, store, -, persisted, -, trees, -, -, rfl⟩ := hnew
  exact ⟨persisted.committed.store, rfl, coherent_new _⟩

theorem Served.pooled (h : Pooled runtime a) (hserved : Served runtime a a') : Pooled runtime a' := by
  obtain ⟨base, hbase, hcoherent⟩ := h
  cases hserved with
  | @starts req bound next _ _ => exact ⟨next.1.saved.store, rfl, coherent_new _⟩
  | pools _ hinserts => exact ⟨base, hbase, hcoherent.insert (executionContext_fields _ _) hinserts⟩
  | @advances candidate pool _ hrebuilds =>
    refine ⟨candidate.state.store, rfl, ?_⟩
    unfold Application.nextMempool at hrebuilds
    split at hrebuilds
    · exact coherent_rebuild (executionContext_fields _ _) hrebuilds
    · rw [← Except.ok.inj hrebuilds]
      exact coherent_new _
  | _ => exact ⟨base, hbase, hcoherent⟩

/-- After any sequence of requests, the ids and the byte count of the mempool are those of its entries and within the
limits, no two entries have one id, and the entries execute in order on the committed state at the height and base fee
of the next block to the store that the next insertion is checked on; and a commit is refused for the mempool only by a
fatal error of the execution. -/
theorem mempool_coherent (h : Reached runtime a) :
    Pooled runtime a ∧ ∀ candidate err, a.nextMempool runtime candidate = .error err →
      isFatalExecutionError err = true := by
  obtain ⟨start, hopened, hrun⟩ := h
  have hpooled : Pooled runtime a := by
    induction hrun with
    | refl => exact hopened.pooled
    | tail _ hserved ih =>
      obtain ⟨request, rfl⟩ := hserved
      exact (serve_served _ request).pooled ih
  refine ⟨hpooled, fun candidate err hrebuild => ?_⟩
  obtain ⟨base, -, hcoherent⟩ := hpooled
  unfold Application.nextMempool at hrebuild
  split at hrebuild
  · exact rebuild_error hcoherent hrebuild
  · cases hrebuild

end Runs

end Model

section Lab

attribute [local instance] checksumPrimitives readsPayments readsGenesis

/-- After the block with the first payment, the second one is left. -/
theorem mempool_coherent_app : appCommitted.mempool.entries.map MempoolEntry.raw = [rawPayment 1] ∧
    Pooled appRuntime appCommitted :=
  ⟨by decide +kernel, (mempool_coherent appCommitted_reached).1⟩

end Lab

end ChainLab.Abci
