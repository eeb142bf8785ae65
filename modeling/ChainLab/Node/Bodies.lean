import ChainLab.Core.Escrow
import ChainLab.Node.Runs
import ChainLab.Types.BlockCodec

/-! The bodies of blocks: what the loops that fill a block and that validate one have executed, and that two known
copies of a block carry the same transactions and receipts. -/

namespace ChainLab.Node

open ChainLab.Lib ChainLab.Types ChainLab.Crypto ChainLab.State ChainLab.Core ChainLab.Consensus

variable [Primitives]

/-! ### Executed transactions -/

section Executed

variable {e : Executor} {context : ExecutionContext} {store after : Store} {tx : Transaction}

omit [Primitives] in
theorem validateBatchOperation_listed {entry : BatchOperation × Nat} (h : validateBatchOperation entry = .ok ()) :
    entry.1.Listed := by
  unfold BatchOperation.Listed
  simp only [validateBatchOperation] at h
  split at h
  · next htype => rw [htype]; trivial
  · next htype => rw [htype]; trivial
  · cases h

/-- Only a batch transaction carries operations, and their types are looked at. -/
theorem prepare_listed {a : Ante} (h : e.prepare store tx context = .ok a) : tx.Listed := by
  simp only [Executor.prepare, bind_ok, refuseIf_ok, exists_const, intrinsicGasForTransaction,
    validateTransactionSchema] at h
  obtain ⟨-, intrinsic, ⟨_, ⟨_, henvelope, hmessage⟩, hgas⟩, -, _, hauthorized, -⟩ := h
  simp only [validateEnvelopeSchema, bind_ok, refuseIf_ok, exists_const] at henvelope
  obtain ⟨_, -, _, -, _, -, _, -, _, -, -, -, -, -, _, -, -, _, -, hbatch⟩ := henvelope
  by_cases hrecovery : tx.type = .accountRecovery
  · have hempty : tx.batch = [] := by
      rw [validateTransactionAuthorization, if_pos hrecovery] at hauthorized
      simp only [validateAccountRecoveryAuthorization, bind_ok, refuseIf_ok, exists_const, not_or, not_lt] at hauthorized
      obtain ⟨-, -, -, ⟨-, -, hlength⟩, -⟩ := hauthorized
      exact List.eq_nil_of_length_eq_zero (Nat.le_zero.mp hlength)
    refine ⟨by rw [hrecovery]; trivial, ?_⟩
    rw [hempty]
    exact fun _ hmem => absurd hmem List.not_mem_nil
  · by_cases hbatchType : tx.type = .batch
    · refine ⟨by rw [hbatchType]; trivial, fun operation hmem => ?_⟩
      rw [validateMessageSchema, hbatchType] at hmessage
      simp only [bind_ok, refuseIf_ok, exists_const, forM_ok] at hmessage
      obtain ⟨i, hi⟩ := List.mem_iff_getElem?.mp hmem
      exact validateBatchOperation_listed (hmessage.2.2.2 (operation, i) (List.mk_mem_zipIdx_iff_getElem?.mpr hi))
    · have hempty : tx.batch = [] := by
        by_contra hne
        exact hbatch ⟨hrecovery, hne, hbatchType⟩
      refine ⟨?_, by rw [hempty]; exact fun _ hmem => absurd hmem List.not_mem_nil⟩
      unfold TxType.Listed
      split
      · next htype =>
        rw [htype] at hgas
        cases hgas
      · trivial

theorem listed_of_receipt {receipt : Receipt} (h : e.executeWithContext store tx context = (after, .ok receipt)) :
    tx.Listed := by
  obtain ⟨err, hrun⟩ | ⟨a, _, _, _, hprepare, -⟩ | ⟨a, _, _, _, _, hprepare, -⟩ :=
    Executor.executeWithContext_cases e store tx context
  · cases hrun.symm.trans h
  · exact prepare_listed hprepare
  · exact prepare_listed hprepare

end Executed

/-- The store after transactions that were executed one after the other, and their receipts. -/
inductive Ran (e : Executor) (context : ExecutionContext) : Store → List (Transaction × Receipt) → Store → Prop
  | nil (store : Store) : Ran e context store [] store
  | cons {store next after : Store} {tx : Transaction} {receipt : Receipt} {rest : List (Transaction × Receipt)}
    (first : e.executeWithContext store tx context = (next, .ok receipt)) (others : Ran e context next rest after) :
    Ran e context store ((tx, receipt) :: rest) after

/-- The gas of the receipts. -/
def gasOf (ran : List (Transaction × Receipt)) : Nat := (ran.map fun done => done.2.gasUsed.toNat).sum

section Loops

variable {e : Executor} {context : ExecutionContext} {store after : Store} {ran : List (Transaction × Receipt)}

theorem Ran.listed (h : Ran e context store ran after) : ∀ tx ∈ ran.map Prod.fst, tx.Listed := by
  induction h with
  | nil _ => exact fun _ hmem => absurd hmem List.not_mem_nil
  | cons hfirst _ ih =>
    intro tx hmem
    rcases List.mem_cons.mp hmem with rfl | hmem
    · exact listed_of_receipt hfirst
    · exact ih tx hmem

/-- The context in which the transactions of a block run. -/
def blockContext (block : Block) : ExecutionContext where
  blockHeight := block.header.height
  baseFeePerGas := block.header.baseFeePerGas

theorem validateTransactionOnState_ok {block : Block} {tx : Transaction} {gas gas' : UInt64}
    {receipts receipts' : List Receipt} :
    LabNode.validateTransactionOnState e block (store, gas, receipts) tx = .ok (after, gas', receipts') ↔
      ∃ receipt, e.executeWithContext store tx (blockContext block) = (after, .ok receipt) ∧
        tx.gasLimit ≤ block.header.gasLimit ∧ checkedAdd gas receipt.gasUsed = .ok gas' ∧
        receipts' = receipts ++ [receipt] := by
  have hcontext : blockContext block =
      { blockHeight := block.header.height, baseFeePerGas := block.header.baseFeePerGas } := rfl
  rw [hcontext]
  simp only [LabNode.validateTransactionOnState, bind_ok, refuseIf_ok, exists_const, UInt64.not_lt, gt_iff_lt]
  rcases e.executeWithContext store tx _ with ⟨next, err | receipt⟩
  · simp
  · simp only [bind_ok, pure_eq_ok, Except.ok.injEq, Prod.mk.injEq]
    constructor
    · rintro ⟨hlimit, _, hgas, rfl, rfl, rfl⟩
      exact ⟨receipt, ⟨rfl, rfl⟩, hlimit, hgas, rfl⟩
    · rintro ⟨_, ⟨rfl, rfl⟩, hlimit, hgas, rfl⟩
      exact ⟨hlimit, gas', hgas, rfl, rfl, rfl⟩

/-- The transaction loop of `validateBlockOnStateLocked`. -/
theorem validateTransactions_ok {block : Block} (txs : List Transaction) {gas gas' : UInt64}
    {receipts receipts' : List Receipt} :
    txs.foldlM (LabNode.validateTransactionOnState e block) (store, gas, receipts) = .ok (after, gas', receipts') ↔
      ∃ ran, Ran e (blockContext block) store ran after ∧ ran.map Prod.fst = txs ∧
        (∀ tx ∈ txs, tx.gasLimit ≤ block.header.gasLimit) ∧ gas'.toNat = gas.toNat + gasOf ran ∧
        receipts' = receipts ++ ran.map Prod.snd := by
  induction txs generalizing store gas receipts with
  | nil =>
    simp only [List.foldlM_nil, pure_eq_ok, Except.ok.injEq, Prod.mk.injEq]
    constructor
    · rintro ⟨rfl, rfl, rfl⟩
      exact ⟨[], .nil _, rfl, fun _ hmem => absurd hmem List.not_mem_nil, rfl, (List.append_nil _).symm⟩
    · rintro ⟨ran, hran, htxs, -, hgas, hreceipts⟩
      obtain rfl := List.map_eq_nil_iff.mp htxs
      cases hran
      exact ⟨rfl, (UInt64.toNat_inj.mp hgas).symm, (hreceipts.trans (List.append_nil _)).symm⟩
  | cons tx txs ih =>
    simp only [List.foldlM_cons, bind_ok]
    constructor
    · rintro ⟨⟨next, nextGas, nextReceipts⟩, hround, hrounds⟩
      obtain ⟨receipt, hrun, hlimit, hgas, rfl⟩ := validateTransactionOnState_ok.mp hround
      obtain ⟨ran, hran, rfl, hlimits, htotal, rfl⟩ := ih.mp hrounds
      refine ⟨(tx, receipt) :: ran, .cons hrun hran, rfl, List.forall_mem_cons.mpr ⟨hlimit, hlimits⟩, ?_,
        List.append_assoc _ _ _⟩
      rw [htotal, checkedAdd_toNat hgas, gasOf, gasOf, List.map_cons, List.sum_cons, Nat.add_assoc]
    · rintro ⟨ran, hran, htxs, hlimits, htotal, hall⟩
      cases hran with
      | nil => cases htxs
      | @cons _ next _ first receipt rest hfirst hothers =>
        obtain ⟨rfl, hrest⟩ := List.cons.inj htxs
        obtain ⟨hlimit, hlimits⟩ := List.forall_mem_cons.mp hlimits
        have hgas : gasOf ((first, receipt) :: rest) = receipt.gasUsed.toNat + gasOf rest := List.sum_cons
        rw [hgas, ← Nat.add_assoc] at htotal
        have hfits : gas.toNat + receipt.gasUsed.toNat < 2 ^ 64 := by
          have hbound := gas'.toNat_lt
          omega
        refine ⟨(next, gas + receipt.gasUsed, receipts ++ [receipt]),
          validateTransactionOnState_ok.mpr ⟨receipt, hfirst, hlimit, checkedAdd_of_fits hfits, rfl⟩,
          ih.mpr ⟨rest, hothers, hrest, hlimits, ?_, ?_⟩⟩
        · rw [htotal, toNat_add_of_fits hfits]
        · rw [hall, List.map_cons, List.append_assoc]
          rfl

variable {setup : Setup}

/-- The loop of `ProduceBlock`: what it includes was executed on what was included before. -/
theorem selectTransactions_ran (txs : List Transaction) :
    ∀ {draft draft' : BlockDraft}, selectTransactions setup context draft txs = .ok draft' →
      ∃ ran, Ran setup.executor context draft.working ran draft'.working ∧
        draft'.included = draft.included ++ ran.map Prod.fst ∧ draft'.receipts = draft.receipts ++ ran.map Prod.snd ∧
        draft'.gasUsed.toNat = draft.gasUsed.toNat + gasOf ran ∧ (ran.map Prod.fst).Sublist txs ∧
        (draft.gasUsed ≤ setup.blockGasLimit → draft'.gasUsed ≤ setup.blockGasLimit) := by
  induction txs with
  | nil =>
    intro draft draft' h
    cases h
    exact ⟨[], .nil _, (List.append_nil _).symm, (List.append_nil _).symm, rfl, .refl _, id⟩
  | cons tx txs ih =>
    intro draft draft' h
    -- a transaction that is left behind changes nothing of what was executed
    have hleave : ∀ {remaining : List Transaction} {blockFull : Bool},
        selectTransactions setup context { draft with remaining, blockFull } txs = .ok draft' →
        ∃ ran, Ran setup.executor context draft.working ran draft'.working ∧
          draft'.included = draft.included ++ ran.map Prod.fst ∧ draft'.receipts = draft.receipts ++ ran.map Prod.snd ∧
          draft'.gasUsed.toNat = draft.gasUsed.toNat + gasOf ran ∧ (ran.map Prod.fst).Sublist (tx :: txs) ∧
          (draft.gasUsed ≤ setup.blockGasLimit → draft'.gasUsed ≤ setup.blockGasLimit) := by
      intro remaining blockFull h
      obtain ⟨ran, hran, hincluded, hreceipts, hgas, hsublist, hlimit⟩ := ih h
      exact ⟨ran, hran, hincluded, hreceipts, hgas, hsublist.cons tx, hlimit⟩
    unfold selectTransactions at h
    split at h
    · cases h
      exact ⟨[], .nil _, (List.append_nil _).symm, (List.append_nil _).symm, rfl, List.nil_sublist _, id⟩
    · rw [bind_ok] at h
      obtain ⟨txSize, -, h⟩ := h
      dsimp only at h
      split at h
      · split at h
        · cases h
        · exact hleave h
      · next candidate receipt hrun =>
        rw [bind_ok] at h
        obtain ⟨nextGasUsed, hnext, h⟩ := h
        split at h
        · exact hleave h
        · next hfits =>
          simp only [bind_ok] at h
          obtain ⟨_, -, _, -, h⟩ := h
          split at h
          · exact hleave h
          · obtain ⟨ran, hran, hincluded, hreceipts, hgas, hsublist, hlimit⟩ := ih h
            refine ⟨(tx, receipt) :: ran, .cons hrun hran, ?_, ?_, ?_, hsublist.cons_cons tx,
              fun _ => hlimit (UInt64.not_lt.mp hfits)⟩
            · rw [hincluded, List.append_assoc]
              rfl
            · rw [hreceipts, List.append_assoc]
              rfl
            · rw [hgas, checkedAdd_toNat hnext, gasOf, gasOf, List.map_cons, List.sum_cons, Nat.add_assoc]

end Loops

/-! ### Known blocks -/

section Known

variable {setup : Setup} {world : World} {n n' : LabNode} {block parent existing merged : Block}

theorem validateBlockOnState_listed {parentState after : Store}
    (h : LabNode.validateBlockOnState setup parent parentState block = .ok after) : block.Listed := by
  simp only [LabNode.validateBlockOnState, bind_ok] at h
  obtain ⟨_, -, _, -, _, -, _, -, _, -, ⟨working, gasUsed, receipts⟩, hscan, -⟩ := h
  obtain ⟨ran, hran, htxs, -⟩ := (validateTransactions_ok _).mp hscan
  intro tx hmem
  exact hran.listed tx (htxs ▸ hmem)

theorem Drafted.listed {working : Store} {mempool queued : List Transaction}
    (h : Drafted setup world n block working mempool queued) : block.Listed := by
  obtain ⟨_, _, draft, _, -, -, hselect, -, -, rfl, -⟩ := h.parts
  obtain ⟨ran, hran, hincluded, -⟩ := selectTransactions_ran _ hselect
  intro tx hmem
  exact hran.listed tx (hincluded.subst (motive := fun included => tx ∈ included) hmem)

omit [Primitives] in
/-- Blocks are compared by their encodings, which leave out nothing but the certificate. -/
theorem blocksEqualIgnoringFinalityCertificate_iff {left right : Block} (hleft : left.Listed) (hright : right.Listed) :
    blocksEqualIgnoringFinalityCertificate left right = true ↔
      { left with finalityCertificate := none } = { right with finalityCertificate := none } := by
  unfold blocksEqualIgnoringFinalityCertificate canonicalBlocksEqual
  rw [decide_eq_true_eq]
  constructor
  · intro h
    exact Block.json_injective (show ({ left with finalityCertificate := none } : Block).Listed from hleft)
      (show ({ right with finalityCertificate := none } : Block).Listed from hright) h
  · intro h
    rw [h]

/-- The block that replaces a known one differs from it in the certificate only. -/
theorem mergeKnownBlock_body {parentState : Store} (hexisting : existing.Listed) (hblock : block.Listed)
    (h : mergeKnownBlock parent parentState existing block = .ok (some merged)) :
    merged = { existing with finalityCertificate := merged.finalityCertificate } := by
  simp only [mergeKnownBlock, bind_ok, refuseIf_ok, exists_const, Bool.not_eq_true', Bool.not_eq_false] at h
  obtain ⟨hequal, h⟩ := h
  have hbody := (blocksEqualIgnoringFinalityCertificate_iff hexisting hblock).mp hequal
  obtain ⟨header, transactions, receipts, signature, certificate⟩ := existing
  obtain ⟨header', transactions', receipts', signature', certificate'⟩ := block
  simp only [Block.mk.injEq, and_true] at hbody
  obtain ⟨rfl, rfl, rfl, rfl⟩ := hbody
  split at h
  · obtain rfl := Option.some.inj (Except.ok.inj h)
    rfl
  · dsimp only at h
    split at h
    · cases h
    · simp only [bind_ok, pure_eq_ok, Except.ok.injEq, Option.some.injEq] at h
      obtain ⟨_, -, _, -, rfl⟩ := h
      rfl

end Known

end ChainLab.Node
