import ChainLab.Core.BaseFee
import ChainLab.Lib.Loops
import ChainLab.Node.Pending

/-! Replacements in the transaction pool: what a slot of the pool, one sender and one nonce, can hold one after the
other. -/

namespace ChainLab.Node

open ChainLab.Lib ChainLab.Types ChainLab.Crypto ChainLab.State ChainLab.Core

/-- The transaction in the slot of a submitted one: a pending one first, then a queued one. -/
def Pool.occupant (pool : Pool) (tx : Transaction) : Option Transaction :=
  match transactionReplacementIndex pool.mempool tx with
  | some index => pool.mempool[index]?
  | none => (transactionReplacementIndex pool.queued tx).bind fun index => pool.queued[index]?

section Slots

variable [Primitives] {setup : Setup} {e : Executor} {context : ExecutionContext} {state : Store} {pool pool' : Pool}
  {blockGasLimit : UInt64} {old new tx : Transaction}

/-- At some node, a submitted transaction is accepted in the place of another one. -/
def Replaces (setup : Setup) (old new : Transaction) : Prop :=
  ∃ (n : LabNode) (pool : Pool), n.pool.occupant new = some old ∧
    submitTransaction setup.executor (n.nextContext setup) n.state setup.blockGasLimit n.pool new = .ok pool

omit [Primitives] in
theorem transactionReplacementIndex_some {txs : List Transaction} {index : Nat}
    (h : transactionReplacementIndex txs tx = some index) :
    ∃ found, txs[index]? = some found ∧ senderNonce found = senderNonce tx := by
  unfold transactionReplacementIndex at h
  split at h
  · cases h
  · obtain ⟨hlt, hfound, -⟩ := List.findIdx?_eq_some_iff_getElem.mp h
    rw [decide_eq_true_eq] at hfound
    exact ⟨txs[index], List.getElem?_eq_getElem hlt, Prod.ext hfound.1 hfound.2⟩

omit [Primitives] in
theorem senderNonce_occupant (h : pool.occupant tx = some old) : senderNonce old = senderNonce tx := by
  unfold Pool.occupant at h
  split at h
  · next index hindex =>
    obtain ⟨found, hfound, hslot⟩ := transactionReplacementIndex_some hindex
    rw [hfound] at h
    exact Option.some.inj h ▸ hslot
  · obtain ⟨index, hindex, h⟩ := Option.bind_eq_some_iff.mp h
    obtain ⟨found, hfound, hslot⟩ := transactionReplacementIndex_some hindex
    rw [hfound] at h
    exact Option.some.inj h ▸ hslot

/-- Promotion executes every transaction of the pending list that it is given. -/
theorem fee_of_promote {base : Store} {mempool queued : List Transaction} {lists : List Transaction × List Transaction}
    (h : promoteQueuedForState e context base mempool queued = .ok lists) (hmem : tx ∈ mempool) :
    context.baseFeePerGas ≤ (feeCaps tx).1 := by
  simp only [promoteQueuedForState, bind_ok] at h
  obtain ⟨working, hworking, -⟩ := h
  obtain ⟨before, after, happly⟩ := foldlM_visits mempool hworking tx hmem
  exact fee_of_apply happly

/-- A replacement is checked against the transaction it replaces and is executed, whichever list holds the slot. -/
theorem submitTransaction_replaces (hslot : pool.occupant new = some old)
    (h : submitTransaction e context state blockGasLimit pool new = .ok pool') :
    canReplacePendingTransaction old new = .ok () ∧ context.baseFeePerGas ≤ (feeCaps new).1 := by
  simp only [submitTransaction, bind_ok] at h
  obtain ⟨txSize, -, _, -, h⟩ := h
  unfold Pool.occupant at hslot
  cases hpending : transactionReplacementIndex pool.mempool new with
  | some index =>
    rw [hpending] at hslot h
    dsimp only at hslot h
    simp only [replacePending, List.getD_eq_getElem?_getD, hslot, Option.getD_some, bind_ok, pure_eq_ok] at h
    obtain ⟨_, hreplace, _, -, lists, hpromote, -⟩ := h
    have hlt : index < pool.mempool.length := (List.getElem?_eq_some_iff.mp hslot).1
    exact ⟨hreplace, fee_of_promote hpromote (List.mem_set hlt new)⟩
  | none =>
    rw [hpending] at hslot h
    obtain ⟨index, hindex, hslot⟩ := Option.bind_eq_some_iff.mp hslot
    rw [hindex] at h
    dsimp only at h
    simp only [replaceQueued, List.getD_eq_getElem?_getD, hslot, Option.getD_some, bind_ok] at h
    obtain ⟨working, -, _, hreplace, _, -, h⟩ := h
    refine ⟨hreplace, ?_⟩
    unfold submitQueuedReplacement at h
    dsimp only at h
    split at h
    · simp only [bind_ok, pure_eq_ok] at h
      obtain ⟨lists, hpromote, -⟩ := h
      exact fee_of_promote hpromote (List.mem_append_right _ (List.mem_singleton_self new))
    · simp only [validateQueuedTransaction, bind_ok, pure_eq_ok] at h
      obtain ⟨_, -, _, ⟨_, -, after, happly, -⟩, -⟩ := h
      exact fee_of_apply happly

omit [Primitives] in
/-- The two readings of the fees of a transaction agree. -/
theorem replacementFeeCaps_eq (tx : Transaction) : replacementFeeCaps tx = feeCaps tx := by
  have hzero (x : UInt64) : x > 0 ↔ x ≠ 0 := by
    rw [gt_iff_lt, UInt64.lt_iff_toNat_lt, Ne, ← UInt64.toNat_inj]
    exact Nat.pos_iff_ne_zero
  unfold replacementFeeCaps feeCaps
  by_cases hdynamic : tx.maxFeePerGas > 0 ∨ tx.maxPriorityFeePerGas > 0
  · rw [if_pos hdynamic, if_neg]
    rintro ⟨hmax, hpriority⟩
    rcases hdynamic with h | h
    · exact (hzero _).mp h hmax
    · exact (hzero _).mp h hpriority
  · rw [not_or, hzero, hzero, not_not, not_not] at hdynamic
    rw [if_neg, if_pos hdynamic]
    rintro (h | h)
    · exact (hzero _).mp h hdynamic.1
    · exact (hzero _).mp h hdynamic.2

omit [Primitives] in
theorem one_le_nextBaseFee (parent : Block) (fallbackGasLimit : UInt64) :
    1 ≤ (nextBaseFee parent fallbackGasLimit).toNat := by
  unfold nextBaseFee
  dsimp only
  rw [toNat_nextBaseFee]
  exact one_le_nextFee (one_le_effectiveBaseFee _) (effectiveBaseFee_lt _) (one_le_gasTarget _)

/-- A replacement raises the maximum fee by a tenth, rounded up, and keeps or raises the priority fee. That a
transaction in the pool pays a positive fee is not needed: its replacement is executed, and pays the base fee. -/
theorem Replaces.fees (h : Replaces setup old new) :
    bumpedFee (replacementFeeCaps old).1.toNat 10 ≤ (replacementFeeCaps new).1.toNat ∧
      (replacementFeeCaps old).2 ≤ (replacementFeeCaps new).2 := by
  obtain ⟨n, pool, hslot, hsubmit⟩ := h
  obtain ⟨hreplace, hfee⟩ := submitTransaction_replaces hslot hsubmit
  have hpositive := one_le_nextBaseFee n.head setup.blockGasLimit
  rw [UInt64.le_iff_toNat_le, ← replacementFeeCaps_eq] at hfee
  simp only [canReplacePendingTransaction, bind_ok, refuseIf_ok, not_or, Bool.not_eq_true, Bool.not_eq_false'] at hreplace
  obtain ⟨_, -, hmax, hpriority⟩ := hreplace
  have hten : txpoolReplacementPriceBump.toNat = 10 := rfl
  constructor
  · by_cases hzero : (replacementFeeCaps old).1 = 0
    · rw [hzero]
      exact Nat.le_trans hpositive hfee
    · have hbumped := le_of_feeBumped hmax hzero (by decide)
      rwa [hten] at hbumped
  · by_cases hzero : (replacementFeeCaps old).2 = 0
    · rw [hzero]
      exact UInt64.le_iff_toNat_le.mpr (Nat.zero_le _)
    · have hbumped := le_of_feeBumped hpriority hzero (by decide)
      rw [UInt64.le_iff_toNat_le]
      exact Nat.le_trans (Nat.le_add_right _ _) hbumped

theorem Replaces.lt (h : Replaces setup old new) :
    (replacementFeeCaps old).1.toNat < (replacementFeeCaps new).1.toNat := by
  have hfees := h.fees.1
  unfold bumpedFee at hfees
  omega

/-- The fee grows with every replacement, and there is a largest one. -/
theorem replacements_end (setup : Setup) (held : Nat → Transaction) :
    ¬∀ i, Replaces setup (held i) (held (i + 1)) := by
  intro h
  have hgrows (i : Nat) : i ≤ (replacementFeeCaps (held i)).1.toNat := by
    induction i with
    | zero => exact Nat.zero_le _
    | succ i ih =>
      have hlt := (h i).lt
      omega
  have hlast := hgrows (2 ^ 64)
  have hbound := (replacementFeeCaps (held (2 ^ 64))).1.toNat_lt
  omega

/-- The replacement rule. The threshold is exact, and reports an overflow exactly when its value does not fit a word.
In every sequence of transactions of which each was accepted at some node in the place of the last, all are of one
slot, the maximum fee grows by at least a tenth, rounded up, the priority fee never falls, and the sequence ends. -/
theorem replacement_rule :
    (∀ oldFee percent : UInt64, 0 < oldFee → percent ≤ 100 →
      bumpedFeeThreshold oldFee percent =
        if bumpedFee oldFee.toNat percent.toNat < 2 ^ 64 then
          some (UInt64.ofNat (bumpedFee oldFee.toNat percent.toNat)) else none) ∧
    (∀ (setup : Setup) (old new : Transaction), Replaces setup old new →
      senderNonce old = senderNonce new ∧
      (replacementFeeCaps old).1.toNat + max 1 (((replacementFeeCaps old).1.toNat * 10) ⌈/⌉ 100) ≤
        (replacementFeeCaps new).1.toNat ∧
      (replacementFeeCaps old).2 ≤ (replacementFeeCaps new).2) ∧
    ∀ (setup : Setup) (held : Nat → Transaction), ¬∀ i, Replaces setup (held i) (held (i + 1)) := by
  refine ⟨fun oldFee percent hfee hpercent => ?_, fun setup old new h => ?_, replacements_end⟩
  · have hne : oldFee ≠ 0 := by
      rintro rfl
      exact UInt64.lt_irrefl 0 hfee
    exact bumpedFeeThreshold_eq hne (UInt64.le_iff_toNat_le.mp hpercent)
  · obtain ⟨n, pool, hslot, -⟩ := id h
    exact ⟨senderNonce_occupant hslot, h.fees⟩

end Slots

end ChainLab.Node
