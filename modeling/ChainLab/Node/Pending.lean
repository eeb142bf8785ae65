import ChainLab.Core.Steps
import ChainLab.Node.State

/-! The pending list and its nonces: what an execution without an error says about a transaction, which nonces of a
sender a list of such executions uses, and that promotion keeps the list executing. -/

namespace ChainLab.Node

open ChainLab.Lib ChainLab.Types ChainLab.Crypto ChainLab.State ChainLab.State.Store ChainLab.Core

section Execution

variable [Primitives] {e : Executor} {context : ExecutionContext} {base working after : Store} {tx : Transaction}
  {txs : List Transaction}

/-- What an execution that is not refused has found, and done to the nonces. -/
structure Executed (context : ExecutionContext) (working : Store) (tx : Transaction) (after : Store) : Prop where
  canonical : IsCanonicalAddress tx.fromAddress
  nonce : (working.getAccount tx.fromAddress).nonce = tx.nonce
  raised : Executor.NonceRaised working after tx
  fee : context.baseFeePerGas ≤ (feeCaps tx).1

theorem prepare_found {a : Ante} (h : e.prepare working tx context = .ok a) :
    IsCanonicalAddress tx.fromAddress ∧ (working.getAccount tx.fromAddress).nonce = tx.nonce ∧
      context.baseFeePerGas ≤ (feeCaps tx).1 := by
  simp only [Executor.prepare, bind_ok, refuseIf_ok, exists_const, not_not] at h
  obtain ⟨-, _, hgas, -, _, -, _, -, hnonce, _, hfee, -⟩ := h
  refine ⟨?_, hnonce, ?_⟩
  · simp only [intrinsicGasForTransaction, validateTransactionSchema, bind_ok] at hgas
    obtain ⟨_, ⟨_, henvelope, -⟩, -⟩ := hgas
    exact from_canonical henvelope
  · simp only [validateFeeCapacity, calculateFee, bind_ok, refuseIf_ok, exists_const] at hfee
    obtain ⟨_, ⟨hcovers, -⟩, -⟩ := hfee
    exact UInt64.not_lt.mp hcovers

theorem executed_of_receipt (hr : e.runtime.KeepsFunds) {receipt : Receipt}
    (h : e.executeWithContext working tx context = (after, .ok receipt)) : Executed context working tx after := by
  obtain ⟨err, hrun⟩ | ⟨a, err, after', receipt', hprep, hfail, hrun⟩ |
    ⟨a, store, draft, after', receipt', hprep, hran, hfinish, hrun⟩ :=
    Executor.executeWithContext_cases e working tx context
  · cases hrun.symm.trans h
  · cases hrun.symm.trans h
    obtain ⟨hcanonical, hnonce, hfee⟩ := prepare_found hprep
    obtain ⟨-, -, hraised, -⟩ := Executor.prepare_spec hprep
    obtain ⟨-, -, hkept, -⟩ := Executor.commitFailedExecution_spec hfail
    exact ⟨hcanonical, hnonce, fun b => (hkept b).trans (hraised b), hfee⟩
  · cases hrun.symm.trans h
    obtain ⟨hcanonical, hnonce, hfee⟩ := prepare_found hprep
    obtain ⟨-, -, hraised, -⟩ := Executor.prepare_spec hprep
    obtain ⟨-, hmoves⟩ := executeMessage_moves hr hran
    obtain ⟨-, -, hkept, -⟩ := Executor.finish_spec hfinish
    exact ⟨hcanonical, hnonce, fun b => ((hkept b).trans (hmoves.nonce b)).trans (hraised b), hfee⟩

theorem applyTransaction_ok : applyTransaction e context working tx = .ok after ↔
    ∃ receipt, e.executeWithContext working tx context = (after, .ok receipt) := by
  unfold applyTransaction
  rcases e.executeWithContext working tx context with ⟨store, err | receipt⟩
  · simp
  · simp

/-- An execution without an error pays at least the base fee, whatever the runtime does. -/
theorem fee_of_apply (h : applyTransaction e context working tx = .ok after) :
    context.baseFeePerGas ≤ (feeCaps tx).1 := by
  obtain ⟨receipt, h⟩ := applyTransaction_ok.mp h
  obtain ⟨err, hrun⟩ | ⟨a, err, after', receipt', hprep, -⟩ | ⟨a, store, draft, after', receipt', hprep, -⟩ :=
    Executor.executeWithContext_cases e working tx context
  · cases hrun.symm.trans h
  · exact (prepare_found hprep).2.2
  · exact (prepare_found hprep).2.2

theorem executed_of_apply (hr : e.runtime.KeepsFunds) (h : applyTransaction e context working tx = .ok after) :
    Executed context working tx after := by
  obtain ⟨receipt, h⟩ := applyTransaction_ok.mp h
  exact executed_of_receipt hr h

/-! ### The nonces that a list uses -/

theorem replayTransactions_nil : replayTransactions e context base [] = .ok base := rfl

theorem replayTransactions_cons : replayTransactions e context base (tx :: txs) = .ok after ↔
    ∃ next, applyTransaction e context base tx = .ok next ∧ replayTransactions e context next txs = .ok after := by
  rw [replayTransactions, List.foldlM_cons, bind_ok]
  rfl

theorem replayTransactions_append {more : List Transaction} :
    replayTransactions e context base (txs ++ more) = .ok after ↔
      ∃ next, replayTransactions e context base txs = .ok next ∧ replayTransactions e context next more = .ok after := by
  rw [replayTransactions, List.foldlM_append, bind_ok]
  rfl

/-- A transaction of a sender with a nonce is in the list. -/
def Uses (txs : List Transaction) (a : Address) (nonce : Nat) : Prop :=
  ∃ tx ∈ txs, normalize tx.fromAddress = a ∧ tx.nonce.toNat = nonce

omit [Primitives] in
theorem uses_cons {a : Address} {nonce : Nat} :
    Uses (tx :: txs) a nonce ↔ normalize tx.fromAddress = a ∧ tx.nonce.toNat = nonce ∨ Uses txs a nonce := by
  simp only [Uses, List.mem_cons, exists_eq_or_imp]

omit [Primitives] in
theorem Executed.nonceOf (h : Executed context working tx after) :
    working.nonceOf (normalize tx.fromAddress) = tx.nonce.toNat :=
  congrArg UInt64.toNat h.nonce

/-- The nonces of a sender that a list of executions uses are those from the sender's nonce before it up to the one
after it. -/
theorem replay_uses (hr : e.runtime.KeepsFunds) (txs : List Transaction) :
    ∀ {base : Store}, replayTransactions e context base txs = .ok after → ∀ a,
      base.nonceOf a ≤ after.nonceOf a ∧
        ∀ nonce, Uses txs a nonce ↔ base.nonceOf a ≤ nonce ∧ nonce < after.nonceOf a := by
  induction txs with
  | nil =>
    intro base h a
    cases h
    refine ⟨le_rfl, fun nonce => iff_of_false ?_ (by omega)⟩
    rintro ⟨tx, hmem, -⟩
    cases hmem
  | cons tx txs ih =>
    intro base h a
    obtain ⟨next, happly, hrest⟩ := replayTransactions_cons.mp h
    have hexecuted := executed_of_apply hr happly
    obtain ⟨hle, huses⟩ := ih hrest a
    have hraised := hexecuted.raised a
    have hnonce := hexecuted.nonceOf
    by_cases ha : a = normalize tx.fromAddress
    · rw [if_pos ha] at hraised
      rw [← ha] at hnonce
      refine ⟨by omega, fun nonce => ?_⟩
      rw [uses_cons, huses nonce]
      simp only [ha.symm, true_and]
      omega
    · rw [if_neg ha] at hraised
      refine ⟨by omega, fun nonce => ?_⟩
      rw [uses_cons, huses nonce]
      simp only [Ne.symm ha, false_and, false_or]
      omega

/-! ### Promotion -/

/-- What promotion takes from the queue: a transaction that executes. -/
theorem findPromotable_some : ∀ {queued left : List Transaction} {candidate : Store},
    findPromotable e context working queued = .ok (some (tx, left, candidate)) →
      applyTransaction e context working tx = .ok candidate ∧
        ∃ before later, queued = before ++ tx :: later ∧ left = before ++ later := by
  intro queued
  induction queued with
  | nil =>
    intro left candidate h
    cases h
  | cons first rest ih =>
    intro left candidate h
    have hothers : (do
        let found ← findPromotable e context working rest
        return found.map fun found => (found.1, first :: found.2.1, found.2.2) : Result _) =
          .ok (some (tx, left, candidate)) →
        applyTransaction e context working tx = .ok candidate ∧
          ∃ before later, first :: rest = before ++ tx :: later ∧ left = before ++ later := by
      intro h
      simp only [bind_ok, pure_eq_ok, Except.ok.injEq] at h
      obtain ⟨found, hfound, h⟩ := h
      cases found with
      | none => cases h
      | some found =>
        obtain ⟨promoted, left', candidate'⟩ := found
        cases h
        obtain ⟨happly, before, later, rfl, rfl⟩ := ih hfound
        exact ⟨happly, first :: before, later, rfl, rfl⟩
    rw [findPromotable] at h
    by_cases hnonce : first.nonce ≠ (working.getAccount first.fromAddress).nonce
    · rw [if_pos hnonce] at h
      exact hothers h
    · rw [if_neg hnonce] at h
      cases hrun : e.executeWithContext working first context with
      | mk store outcome =>
        rw [hrun] at h
        cases outcome with
        | error err =>
          dsimp only at h
          split at h
          · cases h
          · exact hothers h
        | ok receipt =>
          cases h
          exact ⟨applyTransaction_ok.mpr ⟨receipt, hrun⟩, [], rest, rfl, rfl⟩

/-- The queue of a store: nonces that are not used yet, and each slot once. -/
structure Waiting (working : Store) (queued : List Transaction) : Prop where
  later : ∀ tx ∈ queued, working.nonceOf (normalize tx.fromAddress) ≤ tx.nonce.toNat
  slots : (queued.map senderNonce).Nodup

omit [Primitives] in
theorem senderNonce_eq_iff {left right : Transaction} : senderNonce left = senderNonce right ↔
    normalize left.fromAddress = normalize right.fromAddress ∧ left.nonce.toNat = right.nonce.toNat := by
  rw [senderNonce, senderNonce, Prod.mk.injEq, UInt64.toNat_inj, Subtype.ext_iff]
  rfl

omit [Primitives] in
/-- The two cuts that every round makes in the queue take nothing from one that waits. -/
theorem Waiting.kept {queued : List Transaction} (h : Waiting working queued)
    (hbound : queued.length ≤ maxQueuedTransactions) :
    (queued.filter fun tx => ¬tx.nonce < (working.getAccount tx.fromAddress).nonce).take maxQueuedTransactions =
      queued := by
  have hall : queued.filter (fun tx => ¬tx.nonce < (working.getAccount tx.fromAddress).nonce) = queued := by
    refine List.filter_eq_self.mpr fun tx hmem => ?_
    have hlater := h.later tx hmem
    rw [decide_eq_true_eq, UInt64.lt_iff_toNat_lt]
    exact Nat.not_lt.mpr hlater
  rw [hall, List.take_of_length_le hbound]

omit [Primitives] in
theorem Waiting.perm {queued queued' : List Transaction} (h : Waiting working queued) (hperm : queued'.Perm queued) :
    Waiting working queued' :=
  ⟨fun tx hmem => h.later tx (hperm.mem_iff.mp hmem), (hperm.map senderNonce).nodup_iff.mpr h.slots⟩

omit [Primitives] in
/-- Once a waiting transaction is executed, the others still wait. -/
theorem Waiting.execute {queued : List Transaction} {candidate : Store} (h : Waiting working (tx :: queued))
    (hexecuted : Executed context working tx candidate) : Waiting candidate queued := by
  obtain ⟨hlater, hslots⟩ := h
  rw [List.map_cons, List.nodup_cons] at hslots
  refine ⟨fun other hmem => ?_, hslots.2⟩
  have hlater := hlater other (List.mem_cons_of_mem _ hmem)
  have hraised := hexecuted.raised (normalize other.fromAddress)
  have hnonce := hexecuted.nonceOf
  by_cases hsender : normalize other.fromAddress = normalize tx.fromAddress
  · have hne : tx.nonce.toNat ≠ other.nonce.toNat := fun heq =>
      hslots.1 (List.mem_map.mpr ⟨other, hmem, senderNonce_eq_iff.mpr ⟨hsender, heq.symm⟩⟩)
    rw [if_pos hsender] at hraised
    rw [← hsender] at hnonce
    omega
  · rw [if_neg hsender] at hraised
    omega

/-- What promotion makes of the two lists: it appends executions to the pending one, and it takes nothing else from a
queue that waits and is not too long. -/
structure Promoted (e : Executor) (context : ExecutionContext) (working : Store) (mempool queued : List Transaction)
    (after : Store) (mempool' queued' : List Transaction) : Prop where
  executes : ∃ promoted, mempool' = mempool ++ promoted ∧ replayTransactions e context working promoted = .ok after ∧
    (Waiting working queued → queued.length ≤ maxQueuedTransactions → (promoted ++ queued').Perm queued)
  waits : Waiting working queued → queued.length ≤ maxQueuedTransactions → Waiting after queued'

theorem promoteRounds_spec (hr : e.runtime.KeepsFunds) (rounds : Nat) :
    ∀ {working : Store} {mempool queued mempool' queued' : List Transaction},
      promoteRounds e context rounds working mempool queued = .ok (mempool', queued') →
      ∃ after, Promoted e context working mempool queued after mempool' queued' := by
  induction rounds with
  | zero =>
    intro working mempool queued mempool' queued' h
    cases h
    exact ⟨working, ⟨[], (List.append_nil _).symm, rfl, fun _ _ => .refl _⟩, fun hwaits _ => hwaits⟩
  | succ rounds ih =>
    intro working mempool queued mempool' queued' h
    simp only [promoteRounds, bind_ok] at h
    obtain ⟨found, hfound, h⟩ := h
    cases found with
    | none =>
      cases h
      refine ⟨working, ⟨[], (List.append_nil _).symm, rfl, fun hwaits hbound => ?_⟩, fun hwaits hbound => ?_⟩
      · rw [hwaits.kept hbound]
        exact .refl _
      · rw [hwaits.kept hbound]
        exact hwaits
    | some found =>
      obtain ⟨tx, left, candidate⟩ := found
      obtain ⟨after, ⟨promoted, rfl, hreplay, hperm⟩, hafter⟩ := ih h
      obtain ⟨happly, before, later, hsplit, rfl⟩ := findPromotable_some hfound
      have hexecuted := executed_of_apply hr happly
      have hrest (hwaits : Waiting working queued) (hbound : queued.length ≤ maxQueuedTransactions) :
          queued.Perm (tx :: (before ++ later)) ∧ Waiting candidate (before ++ later) ∧
            (before ++ later).length ≤ maxQueuedTransactions := by
        rw [hwaits.kept hbound] at hsplit
        have hqueued : queued.Perm (tx :: (before ++ later)) := hsplit ▸ List.perm_middle
        have hlength := hqueued.length_eq
        rw [List.length_cons] at hlength
        exact ⟨hqueued, (hwaits.perm hqueued.symm).execute hexecuted, by omega⟩
      refine ⟨after, ⟨tx :: promoted, List.append_assoc _ _ _, replayTransactions_cons.mpr ⟨candidate, happly, hreplay⟩,
        fun hwaits hbound => ?_⟩, fun hwaits hbound => ?_⟩
      · obtain ⟨hqueued, hwaits', hbound'⟩ := hrest hwaits hbound
        exact ((hperm hwaits' hbound').cons tx).trans hqueued.symm
      · obtain ⟨-, hwaits', hbound'⟩ := hrest hwaits hbound
        exact hafter hwaits' hbound'

/-- Promotion returns a pending list that executes on the store. -/
theorem promoteQueuedForState_spec (hr : e.runtime.KeepsFunds) {mempool queued mempool' queued' : List Transaction}
    (h : promoteQueuedForState e context base mempool queued = .ok (mempool', queued')) :
    ∃ working after, replayTransactions e context base mempool = .ok working ∧
      replayTransactions e context base mempool' = .ok after ∧
      Promoted e context working mempool queued after mempool' queued' := by
  simp only [promoteQueuedForState, bind_ok] at h
  obtain ⟨working, hworking, h⟩ := h
  obtain ⟨after, hpromoted⟩ := promoteRounds_spec hr _ h
  obtain ⟨promoted, hmempool, hreplay, -⟩ := id hpromoted.executes
  refine ⟨working, after, hworking, ?_, hpromoted⟩
  rw [hmempool]
  exact replayTransactions_append.mpr ⟨working, hworking, hreplay⟩

end Execution

/-! ### The pending nonce -/

/-- The walk over a set of nonces without a gap ends right above it. -/
theorem walkNonces_eq {pending : Finset UInt64} {last nonce : UInt64} (hle : nonce ≤ last)
    (hpending : ∀ m, nonce ≤ m → (m ∈ pending ↔ m < last)) : LabNode.walkNonces pending nonce = last := by
  induction hsteps : last.toNat - nonce.toNat generalizing nonce with
  | zero =>
    have heq : nonce = last := by
      rw [UInt64.le_iff_toNat_le] at hle
      exact UInt64.toNat_inj.mp (by omega)
    have hnot : nonce ∉ pending := fun hmem => UInt64.lt_irrefl _ (heq ▸ (hpending nonce (UInt64.le_refl _)).mp hmem)
    rw [LabNode.walkNonces, if_pos hnot, heq]
  | succ steps ih =>
    have hbound := last.toNat_lt
    have hone : (1 : UInt64).toNat = 1 := rfl
    have hmem : nonce ∈ pending := by
      rw [hpending nonce (UInt64.le_refl _), UInt64.lt_iff_toNat_lt]
      omega
    have hlast : nonce ≠ maxUint64 := by
      rintro rfl
      rw [toNat_maxUint64] at hsteps
      omega
    have hnext : (nonce + 1).toNat = nonce.toNat + 1 := by rw [toNat_add_of_fits (by omega), hone]
    rw [LabNode.walkNonces, if_neg (not_not.mpr hmem), dif_neg hlast]
    refine ih ?_ (fun m hm => hpending m ?_) (by omega)
    · rw [UInt64.le_iff_toNat_le]
      omega
    · rw [UInt64.le_iff_toNat_le] at hm ⊢
      omega

section Nonce

variable [Primitives] {setup : Setup} {n : LabNode}

/-- Where the pending list executes, the scan of its nonces finds the nonce after it. -/
theorem pendingNonce_eq (hr : setup.runtime.KeepsFunds) {working : Store} (h : n.pendingState setup = .ok working)
    (address : String) : n.pendingNonce address = (working.getAccount address).nonce := by
  have hnormal : normalize (normalizedAddress address) = normalize address :=
    Subtype.ext (toLower_trimSpace_idem address)
  obtain ⟨hle, huses⟩ := replay_uses hr n.pool.mempool h (normalize address)
  unfold LabNode.pendingNonce
  dsimp only
  rw [Store.getAccount, Store.account, hnormal]
  refine walkNonces_eq (UInt64.le_iff_toNat_le.mpr hle) fun m hm => ?_
  have hsent : m ∈ ((n.pool.mempool.filter fun tx =>
      normalizedAddress tx.fromAddress = normalizedAddress address).map Transaction.nonce).toFinset ↔
      Uses n.pool.mempool (normalize address) m.toNat := by
    simp only [List.mem_toFinset, List.mem_map, List.mem_filter, decide_eq_true_eq, Uses, UInt64.toNat_inj,
      Subtype.ext_iff]
    constructor
    · rintro ⟨tx, ⟨hmem, hsender⟩, hnonce⟩
      exact ⟨tx, hmem, hsender, hnonce⟩
    · rintro ⟨tx, hmem, hsender, hnonce⟩
      exact ⟨tx, ⟨hmem, hsender⟩, hnonce⟩
  rw [hsent, huses, UInt64.lt_iff_toNat_lt]
  exact and_iff_right (UInt64.le_iff_toNat_le.mp hm)

end Nonce

end ChainLab.Node
