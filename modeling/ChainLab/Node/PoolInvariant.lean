import ChainLab.Node.Operations
import ChainLab.Node.Slots

/-! The invariant of the transaction pool: the pending list executes on the head state, the queue holds later nonces,
no slot is taken twice, and the pool is within its limits. Every function that patches or rebuilds the two lists keeps
it. -/

namespace ChainLab.Node

open ChainLab.Lib ChainLab.Types ChainLab.Crypto ChainLab.State ChainLab.State.Store ChainLab.Core

/-! ### Limits -/

/-- The bytes of a list of transactions. -/
def poolSize (txs : List Transaction) : Nat := (txs.map canonicalSize).sum

/-- How many transactions of a list are of a sender. -/
def sentBy (sender : String) (txs : List Transaction) : Nat :=
  txs.countP fun tx => normalizedAddress tx.fromAddress = sender

/-- The limits on all transactions of the pool. -/
structure Within (txs : List Transaction) : Prop where
  count : txs.length ≤ maxTxPoolTransactions
  perSender : ∀ sender, sentBy sender txs ≤ maxTransactionsPerSender
  bytes : poolSize txs ≤ maxTxPoolBytes

section Limits

variable {txs txs' rest : List Transaction} {tx previous : Transaction}

theorem foldl_canonicalSize (txs : List Transaction) (total : Nat) :
    txs.foldl (fun total tx => total + canonicalSize tx) total = total + poolSize txs := by
  induction txs generalizing total with
  | nil => rfl
  | cons tx txs ih =>
    rw [List.foldl_cons, ih, poolSize, poolSize, List.map_cons, List.sum_cons, Nat.add_assoc]

theorem poolSize_append (txs txs' : List Transaction) : poolSize (txs ++ txs') = poolSize txs + poolSize txs' := by
  rw [poolSize, List.map_append, List.sum_append]
  rfl

theorem poolSize_cons (tx : Transaction) (txs : List Transaction) :
    poolSize (tx :: txs) = canonicalSize tx + poolSize txs :=
  List.sum_cons

theorem poolSize_perm (h : txs.Perm txs') : poolSize txs = poolSize txs' :=
  (h.map canonicalSize).sum_eq

theorem transactionPoolBytes_eq (mempool queued : List Transaction) :
    transactionPoolBytes mempool queued = poolSize (mempool ++ queued) := by
  rw [transactionPoolBytes, foldl_canonicalSize, foldl_canonicalSize, Nat.zero_add, poolSize_append]

theorem sentBy_cons (sender : String) (tx : Transaction) (txs : List Transaction) :
    sentBy sender (tx :: txs) = sentBy sender txs + if normalizedAddress tx.fromAddress = sender then 1 else 0 := by
  simp only [sentBy, List.countP_cons, decide_eq_true_eq]

theorem Within.perm (h : Within txs) (hperm : txs'.Perm txs) : Within txs' where
  count := hperm.length_eq ▸ h.count
  perSender sender := (hperm.countP_eq _).trans_le (h.perSender sender)
  bytes := poolSize_perm hperm ▸ h.bytes

theorem Within.sublist (h : Within txs) (hsublist : txs'.Sublist txs) : Within txs' where
  count := hsublist.length_le.trans h.count
  perSender sender := hsublist.countP_le.trans (h.perSender sender)
  bytes := (hsublist.map canonicalSize).sum_le_sum (fun _ _ => Nat.zero_le _) |>.trans h.bytes

/-- One more transaction, where the checks on a new one pass. -/
theorem Within.add (h : Within txs) (hcount : txs.length < maxTxPoolTransactions)
    (hsender : sentBy (normalizedAddress tx.fromAddress) txs < maxTransactionsPerSender)
    (hbytes : poolSize txs + canonicalSize tx ≤ maxTxPoolBytes) : Within (tx :: txs) where
  count := hcount
  perSender sender := by
    rw [sentBy_cons]
    split
    · next heq => exact heq ▸ hsender
    · exact h.perSender sender
  bytes := by
    rw [poolSize_cons]
    omega

/-- Another transaction of the same sender in the place of one. -/
theorem Within.replace (h : Within (previous :: rest))
    (hsender : normalizedAddress previous.fromAddress = normalizedAddress tx.fromAddress)
    (hbytes : poolSize (tx :: rest) ≤ maxTxPoolBytes) : Within (tx :: rest) where
  count := h.count
  perSender sender := by
    have hle := h.perSender sender
    rw [sentBy_cons, hsender] at hle
    rwa [sentBy_cons]
  bytes := hbytes

theorem senderNonce_inj {left right : Transaction} (h : senderNonce left = senderNonce right) :
    normalizedAddress left.fromAddress = normalizedAddress right.fromAddress ∧ left.nonce = right.nonce := by
  rwa [senderNonce, senderNonce, Prod.mk.injEq] at h

/-- The checks on a replacement are those on the lists without the transaction that it replaces, and the byte count
that they leave is exact. -/
theorem Within.exchange {pool : Pool} (h : Within txs) (hbytes : pool.txPoolBytes = poolSize txs)
    (hold : txs.Perm (previous :: rest)) (hnew : txs'.Perm (tx :: rest))
    (hslot : senderNonce previous = senderNonce tx)
    (hchecked : pool.validateReplacementTxPoolBytes previous (canonicalSize tx) = .ok ()) :
    Within txs' ∧ pool.replacementTxPoolBytes previous (canonicalSize tx) = poolSize txs' := by
  simp only [Pool.validateReplacementTxPoolBytes, bind_ok, refuseIf_ok, exists_const, not_or, not_lt, not_le] at hchecked
  obtain ⟨hcovers, hbelow, hfits⟩ := hchecked
  have hsize := poolSize_perm hold
  rw [poolSize_cons] at hsize
  have hsize' := poolSize_cons tx rest
  refine ⟨((h.perm hold.symm).replace (senderNonce_inj hslot).1 (by omega)).perm hnew, ?_⟩
  rw [poolSize_perm hnew, hsize', Pool.replacementTxPoolBytes]
  omega

end Limits

/-! ### The counters of the scans -/

/-- The counters hold the bytes and the senders of a list. -/
structure PoolCounters.Counts (counters : PoolCounters) (txs : List Transaction) : Prop where
  bytes : counters.poolBytes = poolSize txs
  senders : ∀ sender, GoMap.get counters.senderCounts sender = sentBy sender txs

namespace PoolCounters.Counts

variable {counters : PoolCounters} {txs txs' : List Transaction}

theorem perm (h : counters.Counts txs) (hperm : txs'.Perm txs) : counters.Counts txs' :=
  ⟨h.bytes.trans (poolSize_perm hperm).symm, fun sender => (h.senders sender).trans (hperm.countP_eq _).symm⟩

theorem add (h : counters.Counts txs) (tx : Transaction) : (counters.add tx).Counts (tx :: txs) where
  bytes := by
    rw [PoolCounters.add, poolSize_cons, h.bytes, Nat.add_comm]
  senders sender := by
    rw [PoolCounters.add, GoMap.get_insert, sentBy_cons, h.senders, h.senders]
    by_cases hsender : sender = normalizedAddress tx.fromAddress
    · rw [if_pos hsender, if_pos hsender.symm, hsender]
    · rw [if_neg hsender, if_neg (Ne.symm hsender), Nat.add_zero]

theorem foldl (h : counters.Counts txs) (more : List Transaction) :
    (more.foldl PoolCounters.add counters).Counts (txs ++ more) := by
  induction more generalizing counters txs with
  | nil => rwa [List.append_nil]
  | cons tx more ih => exact (ih (h.add tx)).perm List.perm_middle

end PoolCounters.Counts

theorem counts_of (txs : List Transaction) : (txs.foldl PoolCounters.add {}).Counts txs := by
  have hempty : PoolCounters.Counts {} [] := ⟨rfl, fun _ => rfl⟩
  exact hempty.foldl txs

section Execution

variable [Primitives] {e : Executor} {context : ExecutionContext} {base working after candidate : Store}
  {tx previous : Transaction} {mempool queued mempool' queued' : List Transaction}

/-! ### Slots -/

omit [Primitives] in
theorem normalizedAddress_ne_empty (h : Executed context working tx after) : normalizedAddress tx.fromAddress ≠ "" := by
  intro hempty
  have hcanonical := h.canonical
  unfold IsCanonicalAddress at hcanonical
  unfold normalizedAddress at hempty
  rw [normalizeAddress, hempty] at hcanonical
  cases hcanonical

omit [Primitives] in
/-- A transaction that executes and finds no occupant has a slot of its own. -/
theorem slot_free (hexecuted : Executed context working tx after) (h : transactionReplacementIndex queued tx = none) :
    senderNonce tx ∉ queued.map senderNonce := by
  unfold transactionReplacementIndex at h
  rw [if_neg (normalizedAddress_ne_empty hexecuted), List.findIdx?_eq_none_iff] at h
  intro hmem
  obtain ⟨other, hother, hslot⟩ := List.mem_map.mp hmem
  have hdiffers := h other hother
  rw [decide_eq_false_iff_not] at hdiffers
  exact hdiffers (senderNonce_inj hslot)

omit [Primitives] in
theorem Waiting.cons (h : Waiting working queued) (hlater : working.nonceOf (normalize tx.fromAddress) ≤ tx.nonce.toNat)
    (hslot : senderNonce tx ∉ queued.map senderNonce) : Waiting working (tx :: queued) :=
  ⟨List.forall_mem_cons.mpr ⟨hlater, h.later⟩, List.nodup_cons.mpr ⟨hslot, h.slots⟩⟩

omit [Primitives] in
theorem Waiting.replace (h : Waiting working (previous :: queued)) (hslot : senderNonce previous = senderNonce tx) :
    Waiting working (tx :: queued) := by
  obtain ⟨hsender, hnonce⟩ := senderNonce_eq_iff.mp hslot
  obtain ⟨hfirst, hrest⟩ := List.forall_mem_cons.mp h.later
  refine ⟨List.forall_mem_cons.mpr ⟨?_, hrest⟩, ?_⟩
  · rwa [← hsender, ← hnonce]
  · rw [List.map_cons, ← hslot]
    exact h.slots

omit [Primitives] in
theorem Waiting.nonces (h : Waiting working queued) (hsame : ∀ a, after.nonceOf a = working.nonceOf a) :
    Waiting after queued :=
  ⟨fun tx hmem => (hsame _).trans_le (h.later tx hmem), h.slots⟩

omit [Primitives] in
theorem uses_perm {txs txs' : List Transaction} (h : txs.Perm txs') (a : Address) (nonce : Nat) :
    Uses txs a nonce ↔ Uses txs' a nonce := by
  simp only [Uses, h.mem_iff]

/-- Lists of executions that use the same nonces end with the same nonces. -/
theorem nonceOf_eq_of_uses (hr : e.runtime.KeepsFunds) {txs txs' : List Transaction} {after' : Store}
    (h : replayTransactions e context base txs = .ok after) (h' : replayTransactions e context base txs' = .ok after')
    (huses : ∀ a nonce, Uses txs a nonce ↔ Uses txs' a nonce) (a : Address) : after'.nonceOf a = after.nonceOf a := by
  obtain ⟨hle, hbetween⟩ := replay_uses hr txs h a
  obtain ⟨hle', hbetween'⟩ := replay_uses hr txs' h' a
  have hsame : ∀ nonce, (base.nonceOf a ≤ nonce ∧ nonce < after.nonceOf a) ↔
      (base.nonceOf a ≤ nonce ∧ nonce < after'.nonceOf a) := by
    intro nonce
    rw [← hbetween, ← hbetween', huses]
  have hlast := hsame (after.nonceOf a)
  have hlast' := hsame (after'.nonceOf a)
  omega

/-- The pending transactions have slots of their own. -/
theorem replay_slots (hr : e.runtime.KeepsFunds) (txs : List Transaction) :
    ∀ {base : Store}, replayTransactions e context base txs = .ok after → (txs.map senderNonce).Nodup := by
  induction txs with
  | nil =>
    intro base _
    exact List.nodup_nil
  | cons tx txs ih =>
    intro base h
    obtain ⟨next, happly, hrest⟩ := replayTransactions_cons.mp h
    refine List.nodup_cons.mpr ⟨fun hmem => ?_, ih hrest⟩
    obtain ⟨other, hother, hslot⟩ := List.mem_map.mp hmem
    obtain ⟨hsender, hnonce⟩ := senderNonce_eq_iff.mp hslot
    have hexecuted := executed_of_apply hr happly
    have hraised := hexecuted.raised (normalize tx.fromAddress)
    rw [if_pos rfl, hexecuted.nonceOf] at hraised
    have huses := ((replay_uses hr txs hrest (normalize tx.fromAddress)).2 tx.nonce.toNat).mp
      ⟨other, hother, hsender, hnonce⟩
    omega

/-! ### The invariant -/

/-- What holds of the two lists at the head state. -/
structure Pooled (e : Executor) (context : ExecutionContext) (base : Store) (mempool queued : List Transaction) :
    Prop where
  executes : ∃ after, replayTransactions e context base mempool = .ok after ∧ Waiting after queued
  queuedCount : queued.length ≤ maxQueuedTransactions
  within : Within (mempool ++ queued)

/-- What holds of the pool at the head state. -/
structure Pool.Sound (e : Executor) (context : ExecutionContext) (base : Store) (pool : Pool) : Prop where
  lists : Pooled e context base pool.mempool pool.queued
  bytes : pool.txPoolBytes = poolSize (pool.mempool ++ pool.queued)

/-- No slot is taken twice. -/
theorem Pooled.slots (h : Pooled e context base mempool queued) (hr : e.runtime.KeepsFunds) :
    ((mempool ++ queued).map senderNonce).Nodup := by
  obtain ⟨after, hreplay, hwaits⟩ := h.executes
  rw [List.map_append]
  refine List.Nodup.append (replay_slots hr mempool hreplay) hwaits.slots fun slot hpending hwaiting => ?_
  obtain ⟨tx, htx, rfl⟩ := List.mem_map.mp hpending
  obtain ⟨other, hother, hslot⟩ := List.mem_map.mp hwaiting
  obtain ⟨hsender, hnonce⟩ := senderNonce_eq_iff.mp hslot
  have huses := ((replay_uses hr mempool hreplay (normalize other.fromAddress)).2 other.nonce.toNat).mp
    ⟨tx, htx, hsender.symm, hnonce.symm⟩
  have hlater := hwaits.later other hother
  omega

/-- Promotion moves transactions from the queue to the pending list, and keeps the invariant. -/
theorem pooled_of_promote (hr : e.runtime.KeepsFunds) (hreplay : replayTransactions e context base mempool = .ok working)
    (hwaits : Waiting working queued) (hcount : queued.length ≤ maxQueuedTransactions)
    (hwithin : Within (mempool ++ queued))
    (h : promoteQueuedForState e context base mempool queued = .ok (mempool', queued')) :
    Pooled e context base mempool' queued' ∧ (mempool' ++ queued').Perm (mempool ++ queued) := by
  obtain ⟨working', after, hreplay', hafter, hpromoted⟩ := promoteQueuedForState_spec hr h
  obtain rfl := Except.ok.inj (hreplay.symm.trans hreplay')
  obtain ⟨promoted, rfl, -, hperm⟩ := id hpromoted.executes
  have hperm := hperm hwaits hcount
  have hall : (mempool ++ promoted ++ queued').Perm (mempool ++ queued) := by
    rw [List.append_assoc]
    exact hperm.append_left mempool
  have hlength := hperm.length_eq
  rw [List.length_append] at hlength
  exact ⟨⟨⟨after, hafter, hpromoted.waits hwaits hcount⟩, by omega, hwithin.perm hall⟩, hall⟩

/-! ### Submission -/

omit [Primitives] in
theorem canonicalTransactionSize_eq {size : Nat} (h : canonicalTransactionSize tx = .ok size) :
    size = canonicalSize tx := by
  simp only [canonicalTransactionSize, bind_ok, refuseIf_ok, pure_eq_ok, Except.ok.injEq] at h
  obtain ⟨_, -, _, -, _, -, rfl⟩ := h
  rfl

theorem replayTransactions_concat {txs : List Transaction} :
    replayTransactions e context base (txs ++ [tx]) = .ok after ↔
      ∃ next, replayTransactions e context base txs = .ok next ∧ applyTransaction e context next tx = .ok after := by
  simp only [replayTransactions_append, replayTransactions_cons, replayTransactions_nil, Except.ok.injEq, exists_eq_right]

omit [Primitives] in
theorem perm_pending (mempool queued : List Transaction) (tx : Transaction) :
    (mempool ++ [tx] ++ queued).Perm (tx :: (mempool ++ queued)) := by
  rw [List.append_assoc]
  exact List.perm_middle

omit [Primitives] in
theorem perm_queued (mempool queued : List Transaction) (tx : Transaction) :
    (mempool ++ (queued ++ [tx])).Perm (tx :: (mempool ++ queued)) := by
  rw [← List.append_assoc]
  exact List.perm_append_singleton tx _

omit [Primitives] in
theorem perm_erase {txs : List Transaction} {index : Nat} (h : txs[index]? = some previous) :
    txs.Perm (previous :: txs.eraseIdx index) := by
  obtain ⟨hlt, rfl⟩ := List.getElem?_eq_some_iff.mp h
  exact (List.getElem_cons_eraseIdx_perm hlt).symm

omit [Primitives] in
theorem perm_set {txs : List Transaction} {index : Nat} (h : txs[index]? = some previous) (tx : Transaction) :
    (txs.set index tx).Perm (tx :: txs.eraseIdx index) :=
  List.set_perm_cons_eraseIdx (List.getElem?_eq_some_iff.mp h).1 tx

omit [Primitives] in
theorem uses_replace {txs txs' rest : List Transaction} (hold : txs.Perm (previous :: rest))
    (hnew : txs'.Perm (tx :: rest)) (hslot : senderNonce previous = senderNonce tx) (a : Address) (nonce : Nat) :
    Uses txs a nonce ↔ Uses txs' a nonce := by
  obtain ⟨hsender, hnonce⟩ := senderNonce_eq_iff.mp hslot
  rw [uses_perm hold, uses_perm hnew, uses_cons, uses_cons, hsender, hnonce]

section Submission

variable {pool pool' : Pool} {index : Nat}

theorem replacePending_sound (hr : e.runtime.KeepsFunds) (hsound : pool.Sound e context base)
    (hindex : pool.mempool[index]? = some previous) (hslot : senderNonce previous = senderNonce tx)
    (h : replacePending e context base pool index tx (canonicalSize tx) = .ok pool') : pool'.Sound e context base := by
  simp only [replacePending, List.getD_eq_getElem?_getD, hindex, Option.getD_some, bind_ok, pure_eq_ok,
    Except.ok.injEq] at h
  obtain ⟨_, -, _, hchecked, ⟨mempool, queued⟩, hpromote, rfl⟩ := h
  have hold : (pool.mempool ++ pool.queued).Perm (previous :: (pool.mempool.eraseIdx index ++ pool.queued)) :=
    (perm_erase hindex).append_right _
  have hnew : (pool.mempool.set index tx ++ pool.queued).Perm (tx :: (pool.mempool.eraseIdx index ++ pool.queued)) :=
    (perm_set hindex tx).append_right _
  obtain ⟨after, hreplay, hwaits⟩ := hsound.lists.executes
  obtain ⟨working, -, hworking, -⟩ := promoteQueuedForState_spec hr hpromote
  -- the replacement uses the nonce of the transaction it replaces, so the queue still waits
  have hsame := nonceOf_eq_of_uses hr hreplay hworking (uses_replace (perm_erase hindex) (perm_set hindex tx) hslot)
  obtain ⟨hwithin, hbytes⟩ := hsound.lists.within.exchange hsound.bytes hold hnew hslot hchecked
  obtain ⟨hpooled, hperm⟩ :=
    pooled_of_promote hr hworking (hwaits.nonces hsame) hsound.lists.queuedCount hwithin hpromote
  exact ⟨hpooled, hbytes.trans (poolSize_perm hperm).symm⟩

theorem replaceQueued_sound (hr : e.runtime.KeepsFunds) (hsound : pool.Sound e context base)
    (hindex : pool.queued[index]? = some previous) (hslot : senderNonce previous = senderNonce tx)
    (h : replaceQueued e context base pool index tx (canonicalSize tx) = .ok pool') : pool'.Sound e context base := by
  simp only [replaceQueued, submitQueuedReplacement, List.getD_eq_getElem?_getD, hindex, Option.getD_some, bind_ok] at h
  obtain ⟨working, hworking, _, -, _, hchecked, h⟩ := h
  obtain ⟨after, hreplay, hwaits⟩ := hsound.lists.executes
  obtain rfl := Except.ok.inj (hreplay.symm.trans hworking)
  have hold : (pool.mempool ++ pool.queued).Perm (previous :: (pool.mempool ++ pool.queued.eraseIdx index)) :=
    ((perm_erase hindex).append_left _).trans List.perm_middle
  have hwaits' : Waiting after (tx :: pool.queued.eraseIdx index) :=
    (hwaits.perm (perm_erase hindex).symm).replace hslot
  have hcount := hsound.lists.queuedCount
  split at h
  · simp only [bind_ok, pure_eq_ok, Except.ok.injEq] at h
    obtain ⟨⟨mempool, queued⟩, hpromote, rfl⟩ := h
    obtain ⟨hwithin, hbytes⟩ :=
      hsound.lists.within.exchange hsound.bytes hold (perm_pending pool.mempool _ tx) hslot hchecked
    obtain ⟨candidate, -, hcandidate, -⟩ := promoteQueuedForState_spec hr hpromote
    obtain ⟨after', hafter', happly⟩ := replayTransactions_concat.mp hcandidate
    obtain rfl := Except.ok.inj (hreplay.symm.trans hafter')
    obtain ⟨hpooled, hperm⟩ := pooled_of_promote hr hcandidate (hwaits'.execute (executed_of_apply hr happly))
      ((List.length_eraseIdx_le _ _).trans hcount) hwithin hpromote
    exact ⟨hpooled, hbytes.trans (poolSize_perm hperm).symm⟩
  · simp only [bind_ok, pure_eq_ok, Except.ok.injEq] at h
    obtain ⟨_, -, _, -, rfl⟩ := h
    have hnew : (pool.mempool ++ pool.queued.set index tx).Perm (tx :: (pool.mempool ++ pool.queued.eraseIdx index)) :=
      ((perm_set hindex tx).append_left _).trans List.perm_middle
    obtain ⟨hwithin, hbytes⟩ := hsound.lists.within.exchange hsound.bytes hold hnew hslot hchecked
    exact ⟨⟨⟨after, hreplay, hwaits'.perm (perm_set hindex tx)⟩, by rwa [List.length_set], hwithin⟩, hbytes⟩

omit [Primitives] in
/-- The checks on a new transaction are those that the limits ask for. -/
theorem Within.accept (hwithin : Within (pool.mempool ++ pool.queued))
    (hbytes : pool.txPoolBytes = poolSize (pool.mempool ++ pool.queued))
    (h : pool.validateNewTxPoolCapacity tx (canonicalSize tx) = .ok ()) : Within (tx :: (pool.mempool ++ pool.queued)) := by
  simp only [Pool.validateNewTxPoolCapacity, bind_ok, refuseIf_ok, exists_const, not_or, not_lt, not_le, ge_iff_le,
    gt_iff_lt] at h
  obtain ⟨hcount, ⟨hbelow, hfits⟩, hsender⟩ := h
  refine hwithin.add (by rwa [List.length_append]) ?_ (by omega)
  rwa [sentBy, List.countP_append]

theorem addTransaction_sound (hr : e.runtime.KeepsFunds) (hsound : pool.Sound e context base)
    (hfree : transactionReplacementIndex pool.queued tx = none)
    (h : addTransaction e context base pool tx (canonicalSize tx) = .ok pool') : pool'.Sound e context base := by
  simp only [addTransaction, bind_ok] at h
  obtain ⟨_, hchecked, working, hworking, h⟩ := h
  obtain ⟨after, hreplay, hwaits⟩ := hsound.lists.executes
  obtain rfl := Except.ok.inj (hreplay.symm.trans hworking)
  have hwithin := hsound.lists.within.accept hsound.bytes hchecked
  have hbytes : pool.txPoolBytes + canonicalSize tx = poolSize (tx :: (pool.mempool ++ pool.queued)) := by
    rw [poolSize_cons, hsound.bytes, Nat.add_comm]
  split at h
  · next hlater =>
    simp only [validateQueuedTransaction, bind_ok, refuseIf_ok, pure_eq_ok, Except.ok.injEq] at h
    obtain ⟨_, -, _, hbound, _, ⟨_, -, checked, happly, -⟩, rfl⟩ := h
    rw [gt_iff_lt, UInt64.lt_iff_toNat_lt] at hlater
    have hslot := slot_free (executed_of_apply hr happly) hfree
    have hwaits' : Waiting after (pool.queued ++ [tx]) :=
      (hwaits.cons hlater.le hslot).perm (List.perm_append_singleton tx _)
    refine ⟨⟨⟨after, hreplay, hwaits'⟩, ?_, hwithin.perm (perm_queued pool.mempool pool.queued tx)⟩, ?_⟩
    · rw [List.length_append, List.length_singleton]
      omega
    · rw [poolSize_perm (perm_queued pool.mempool pool.queued tx)]
      exact hbytes
  · simp only [bind_ok, pure_eq_ok, Except.ok.injEq] at h
    obtain ⟨candidate, happly, ⟨mempool, queued⟩, hpromote, rfl⟩ := h
    have hexecuted := executed_of_apply hr happly
    have hwaits' := (hwaits.cons hexecuted.nonceOf.le (slot_free hexecuted hfree)).execute hexecuted
    obtain ⟨hpooled, hperm⟩ := pooled_of_promote hr (replayTransactions_concat.mpr ⟨after, hreplay, happly⟩) hwaits'
      hsound.lists.queuedCount (hwithin.perm (perm_pending pool.mempool pool.queued tx)) hpromote
    refine ⟨hpooled, hbytes.trans ?_⟩
    exact (poolSize_perm (hperm.trans (perm_pending pool.mempool pool.queued tx))).symm

/-- A submission keeps the invariant, whichever list takes the transaction. -/
theorem submitTransaction_sound (hr : e.runtime.KeepsFunds) {blockGasLimit : UInt64} (hsound : pool.Sound e context base)
    (h : submitTransaction e context base blockGasLimit pool tx = .ok pool') : pool'.Sound e context base := by
  simp only [submitTransaction, bind_ok] at h
  obtain ⟨txSize, hsize, _, -, h⟩ := h
  obtain rfl := canonicalTransactionSize_eq hsize
  cases hpending : transactionReplacementIndex pool.mempool tx with
  | some index =>
    rw [hpending] at h
    obtain ⟨previous, hprevious, hslot⟩ := transactionReplacementIndex_some hpending
    exact replacePending_sound hr hsound hprevious hslot h
  | none =>
    rw [hpending] at h
    cases hqueued : transactionReplacementIndex pool.queued tx with
    | some index =>
      rw [hqueued] at h
      obtain ⟨previous, hprevious, hslot⟩ := transactionReplacementIndex_some hqueued
      exact replaceQueued_sound hr hsound hprevious hslot h
    | none =>
      rw [hqueued] at h
      exact addTransaction_sound hr hsound hqueued h

end Submission

/-! ### Revalidation -/

/-- A round either passes over its transaction or executes it. -/
theorem revalidatePending_ok {scan scan' : MempoolScan} (h : revalidatePending e context scan tx = .ok scan') :
    scan'.working = scan.working ∧ scan'.pending = scan.pending ∨
      applyTransaction e context scan.working tx = .ok scan'.working ∧ scan'.pending = scan.pending ++ [tx] := by
  unfold revalidatePending at h
  dsimp only at h
  split_ifs at h
  · cases h
    exact .inl ⟨rfl, rfl⟩
  · cases h
    exact .inl ⟨rfl, rfl⟩
  · cases hrun : e.executeWithContext scan.working tx context with
    | mk store outcome =>
      rw [hrun] at h
      cases outcome with
      | ok receipt =>
        cases h
        exact .inr ⟨applyTransaction_ok.mpr ⟨receipt, hrun⟩, rfl⟩
      | error err =>
        dsimp only at h
        split at h
        · cases h
        · cases h
          -- an execution with an error leaves the store as it was
          obtain ⟨_, hrun'⟩ | ⟨_, _, _, _, -, -, hrun'⟩ | ⟨_, _, _, _, _, -, -, -, hrun'⟩ :=
            Executor.executeWithContext_cases e scan.working tx context
          · cases hrun.symm.trans hrun'
            exact .inl ⟨rfl, rfl⟩
          · cases hrun.symm.trans hrun'
          · cases hrun.symm.trans hrun'

theorem revalidatePending_fold (txs : List Transaction) :
    ∀ {scan scan' : MempoolScan}, txs.foldlM (revalidatePending e context) scan = .ok scan' →
      replayTransactions e context base scan.pending = .ok scan.working →
      replayTransactions e context base scan'.pending = .ok scan'.working ∧
        ∃ kept, scan'.pending = scan.pending ++ kept ∧ kept.Sublist txs := by
  induction txs with
  | nil =>
    intro scan scan' h hreplay
    cases h
    exact ⟨hreplay, [], (List.append_nil _).symm, .refl _⟩
  | cons tx txs ih =>
    intro scan scan' h hreplay
    rw [List.foldlM_cons, bind_ok] at h
    obtain ⟨next, hnext, h⟩ := h
    rcases revalidatePending_ok hnext with ⟨hworking, hpending⟩ | ⟨happly, hpending⟩
    · obtain ⟨hafter, kept, hkept, hsublist⟩ := ih h (by rw [hpending, hworking, hreplay])
      exact ⟨hafter, kept, hpending ▸ hkept, hsublist.cons tx⟩
    · obtain ⟨hafter, kept, hkept, hsublist⟩ :=
        ih h (by rw [hpending]; exact replayTransactions_concat.mpr ⟨_, hreplay, happly⟩)
      refine ⟨hafter, tx :: kept, ?_, hsublist.cons_cons tx⟩
      rw [hkept, hpending, List.append_assoc]
      rfl

theorem revalidateMempoolForState_spec {txs pending demoted : List Transaction}
    (h : revalidateMempoolForState e context base txs = .ok (pending, demoted)) :
    (∃ working, replayTransactions e context base pending = .ok working) ∧ pending.Sublist txs := by
  simp only [revalidateMempoolForState, bind_ok, pure_eq_ok, Except.ok.injEq, Prod.mk.injEq] at h
  obtain ⟨scan, hscan, rfl, -⟩ := h
  obtain ⟨hreplay, kept, hkept, hsublist⟩ := revalidatePending_fold txs hscan replayTransactions_nil
  rw [hkept] at hreplay ⊢
  exact ⟨⟨_, hreplay⟩, hsublist⟩

/-- What the scan of the queue keeps. -/
structure QueueScan.Sound (working : Store) (mempool : List Transaction) (scan : QueueScan) : Prop where
  waits : Waiting working scan.validated
  count : scan.validated.length ≤ maxQueuedTransactions
  within : Within (mempool ++ scan.validated)
  counts : scan.counters.Counts (mempool ++ scan.validated)
  seen : ∀ tx ∈ scan.validated, senderNonce tx ∈ scan.seen

omit [Primitives] in
/-- A transaction that the limits of a scan let in. -/
theorem Within.count_in {counters : PoolCounters} {txs : List Transaction} (hwithin : Within txs)
    (hcounts : counters.Counts txs) (hlength : txs.length < maxTxPoolTransactions)
    (hsender : GoMap.get counters.senderCounts (normalizedAddress tx.fromAddress) < maxTransactionsPerSender)
    (hbelow : counters.poolBytes < maxTxPoolBytes) (hfits : canonicalSize tx ≤ maxTxPoolBytes - counters.poolBytes) :
    Within (tx :: txs) := by
  have hbytes := hcounts.bytes
  exact hwithin.add hlength (hcounts.senders _ ▸ hsender) (by omega)

omit [Primitives] in
theorem slot_unseen {seen : Finset (String × UInt64)} {txs : List Transaction}
    (hseen : ∀ other ∈ txs, senderNonce other ∈ seen) (h : senderNonce tx ∉ seen) : senderNonce tx ∉ txs.map senderNonce := by
  intro hmem
  obtain ⟨other, hother, hslot⟩ := List.mem_map.mp hmem
  exact h (hslot ▸ hseen other hother)

theorem revalidateQueued_sound {scan scan' : QueueScan} (hscan : scan.Sound working mempool)
    (h : revalidateQueued e context working mempool.length scan tx = .ok scan') : scan'.Sound working mempool := by
  unfold revalidateQueued at h
  dsimp only at h
  split_ifs at h with hseen hused hgap hlimits hbytes
  · exact Except.ok.inj h ▸ hscan
  · exact Except.ok.inj h ▸ hscan
  · exact Except.ok.inj h ▸ hscan
  · exact Except.ok.inj h ▸ hscan
  · exact Except.ok.inj h ▸ hscan
  · split at h
    · split at h
      · cases h
      · exact Except.ok.inj h ▸ hscan
    · obtain rfl := Except.ok.inj h
      simp only [not_or, not_le, ge_iff_le, gt_iff_lt, not_lt] at hlimits hbytes
      obtain ⟨hqueue, htotal, hsender⟩ := hlimits
      have hunused : working.nonceOf (normalize tx.fromAddress) ≤ tx.nonce.toNat :=
        UInt64.le_iff_toNat_le.mp (UInt64.not_lt.mp hused)
      have hslot := slot_unseen hscan.seen hseen
      have hperm := perm_queued mempool scan.validated tx
      refine ⟨(hscan.waits.cons hunused hslot).perm (List.perm_append_singleton tx _), ?_, ?_,
        (hscan.counts.add tx).perm hperm, ?_⟩
      · rw [List.length_append, List.length_singleton]
        omega
      · exact (hscan.within.count_in hscan.counts (by rwa [List.length_append]) hsender hbytes.1 hbytes.2).perm hperm
      · intro other hother
        rcases List.mem_append.mp hother with hother | hother
        · exact Finset.mem_insert_of_mem (hscan.seen other hother)
        · rw [List.mem_singleton.mp hother]
          exact Finset.mem_insert_self _ _

theorem revalidateQueuedForState_spec (hreplay : replayTransactions e context base mempool = .ok working)
    (hwithin : Within mempool) (h : revalidateQueuedForState e context base mempool queued = .ok queued') :
    Waiting working queued' ∧ queued'.length ≤ maxQueuedTransactions ∧ Within (mempool ++ queued') := by
  simp only [revalidateQueuedForState, hreplay, bind_ok, Except.ok.injEq, pure_eq_ok] at h
  obtain ⟨working', rfl, scan, hscan, rfl⟩ := h
  have hstart : QueueScan.Sound working mempool { counters := mempool.foldl PoolCounters.add {} } := by
    refine ⟨⟨fun tx hmem => ?_, List.nodup_nil⟩, Nat.zero_le _, ?_, ?_, fun tx hmem => ?_⟩
    · cases hmem
    · rwa [List.append_nil]
    · rw [List.append_nil]
      exact counts_of mempool
    · cases hmem
  have hend := foldlM_keeps (QueueScan.Sound working mempool) queued
    (fun _ _ _ _ hsound hround => revalidateQueued_sound hsound hround) hstart hscan
  exact ⟨hend.waits, hend.count, hend.within⟩

/-- The pool that is rebuilt on a new head state satisfies the invariant there. -/
theorem poolAfter_pooled {setup : Setup} (hr : setup.runtime.KeepsFunds) (hwithin : Within mempool)
    (h : poolAfter setup context base mempool queued = .ok (mempool', queued')) :
    Pooled setup.executor context base mempool' queued' := by
  simp only [poolAfter, bind_ok] at h
  obtain ⟨⟨pending, demoted⟩, hmempool, validated, hqueued, hpromote⟩ := h
  obtain ⟨⟨working, hreplay⟩, hsublist⟩ := revalidateMempoolForState_spec hmempool
  obtain ⟨hwaits, hcount, hall⟩ := revalidateQueuedForState_spec hreplay (hwithin.sublist hsublist) hqueued
  exact (pooled_of_promote hr hreplay hwaits hcount hall hpromote).1

/-! ### Orphaned transactions -/

/-- What the scan of the orphaned transactions keeps. -/
structure OrphanScan.Sound (e : Executor) (context : ExecutionContext) (base : Store) (scan : OrphanScan) : Prop where
  replayed : replayTransactions e context base scan.pending = .ok scan.working
  waits : Waiting scan.working scan.queued
  count : scan.queued.length ≤ maxQueuedTransactions
  within : Within (scan.pending ++ scan.queued)
  counts : scan.counters.Counts (scan.pending ++ scan.queued)
  seen : ∀ tx ∈ scan.pending ++ scan.queued, senderNonce tx ∈ scan.seenNonces

omit [Primitives] in
theorem seen_cons {seen : Finset (String × UInt64)} {txs txs' : List Transaction} (hperm : txs'.Perm (tx :: txs))
    (hseen : ∀ other ∈ txs, senderNonce other ∈ seen) : ∀ other ∈ txs', senderNonce other ∈ insert (senderNonce tx) seen := by
  intro other hother
  rcases List.mem_cons.mp (hperm.mem_iff.mp hother) with rfl | hother
  · exact Finset.mem_insert_self _ _
  · exact Finset.mem_insert_of_mem (hseen other hother)

theorem reinsertOrphan_sound (hr : e.runtime.KeepsFunds) {included : Finset String} {scan scan' : OrphanScan}
    (hscan : scan.Sound e context base) (h : reinsertOrphan e context included scan tx = .ok scan') :
    scan'.Sound e context base := by
  unfold reinsertOrphan at h
  dsimp only at h
  by_cases hknown : tx.hash ∈ included ∨ tx.hash ∈ scan.seenHashes ∨ senderNonce tx ∈ scan.seenNonces
  · rw [if_pos hknown] at h
    exact Except.ok.inj h ▸ hscan
  rw [if_neg hknown] at h
  by_cases hlimits : scan.pending.length + scan.queued.length ≥ maxTxPoolTransactions ∨
      GoMap.get scan.counters.senderCounts (normalizedAddress tx.fromAddress) ≥ maxTransactionsPerSender
  · rw [if_pos hlimits] at h
    exact Except.ok.inj h ▸ hscan
  rw [if_neg hlimits, bind_ok] at h
  obtain ⟨txSize, hsize, h⟩ := h
  obtain rfl := canonicalTransactionSize_eq hsize
  by_cases hbytes : scan.counters.poolBytes ≥ maxTxPoolBytes ∨
      canonicalSize tx > maxTxPoolBytes - scan.counters.poolBytes
  · rw [if_pos hbytes] at h
    exact Except.ok.inj h ▸ hscan
  rw [if_neg hbytes] at h
  simp only [not_or, not_le, ge_iff_le, gt_iff_lt, not_lt] at hknown hlimits hbytes
  have hslot : senderNonce tx ∉ scan.queued.map senderNonce :=
    slot_unseen (fun other hother => hscan.seen other (List.mem_append_right _ hother)) hknown.2.2
  have hwithin : Within (tx :: (scan.pending ++ scan.queued)) :=
    hscan.within.count_in hscan.counts (by rw [List.length_append]; exact hlimits.1) hlimits.2 hbytes.1 hbytes.2
  split_ifs at h with hused hnext hgap
  · exact Except.ok.inj h ▸ hscan
  · split at h
    · split at h
      · cases h
      · exact Except.ok.inj h ▸ hscan
    · next candidate receipt hrun =>
      obtain rfl := Except.ok.inj h
      have happly : applyTransaction e context scan.working tx = .ok candidate := applyTransaction_ok.mpr ⟨_, hrun⟩
      have hexecuted := executed_of_apply hr happly
      have hperm := perm_pending scan.pending scan.queued tx
      exact ⟨replayTransactions_concat.mpr ⟨_, hscan.replayed, happly⟩,
        (hscan.waits.cons hexecuted.nonceOf.le hslot).execute hexecuted, hscan.count, hwithin.perm hperm,
        (hscan.counts.add tx).perm hperm, seen_cons hperm hscan.seen⟩
  · exact Except.ok.inj h ▸ hscan
  · simp only [not_or, not_le, ge_iff_le] at hgap
    split at h
    · split at h
      · cases h
      · exact Except.ok.inj h ▸ hscan
    · obtain rfl := Except.ok.inj h
      have hunused : scan.working.nonceOf (normalize tx.fromAddress) ≤ tx.nonce.toNat :=
        UInt64.le_iff_toNat_le.mp (UInt64.not_lt.mp hused)
      have hperm := perm_queued scan.pending scan.queued tx
      refine ⟨hscan.replayed, (hscan.waits.cons hunused hslot).perm (List.perm_append_singleton tx _), ?_,
        hwithin.perm hperm, (hscan.counts.add tx).perm hperm, seen_cons hperm hscan.seen⟩
      have hbound := hgap.2
      simp only [OrphanScan.count, List.length_append, List.length_singleton]
      omega

/-- The pool into which orphaned transactions are put back satisfies the invariant. -/
theorem reinsertOrphanedTransactionsForState_pooled (hr : e.runtime.KeepsFunds) {orphaned : List Transaction}
    {included : Finset String} (hpooled : Pooled e context base mempool queued)
    (h : reinsertOrphanedTransactionsForState e context base mempool queued orphaned included = .ok (mempool', queued')) :
    Pooled e context base mempool' queued' := by
  obtain ⟨working, hreplay, hwaits⟩ := hpooled.executes
  simp only [reinsertOrphanedTransactionsForState, hreplay, bind_ok, Except.ok.injEq] at h
  obtain ⟨working', rfl, scan, hscan, hpromote⟩ := h
  have hend := foldlM_keeps (OrphanScan.Sound e context base) orphaned
    (fun _ _ _ _ hsound hround => reinsertOrphan_sound hr hsound hround)
    ⟨hreplay, hwaits, hpooled.queuedCount, hpooled.within,
      ⟨transactionPoolBytes_eq mempool queued, (counts_of (mempool ++ queued)).senders⟩,
      fun tx hmem => List.mem_toFinset.mpr (List.mem_map_of_mem hmem)⟩ hscan
  exact (pooled_of_promote hr hend.replayed hend.waits hend.count hend.within hpromote).1

end Execution

end ChainLab.Node
