import ChainLab.Core.Settlement

/-! What running a message does to balances, nonces and stakes: the moves the transaction states, and
nothing else. -/

namespace ChainLab.Core

open ChainLab.Lib ChainLab.Types ChainLab.Crypto ChainLab.State ChainLab.State.Store

variable {s s' s'' : Store} {tx : Transaction} {context : ExecutionContext} {runtime : Runtime}

/-- A runtime that may write storage, code and contract records, but moves no funds and no nonce. -/
structure Runtime.KeepsFunds (runtime : Runtime) : Prop where
  deploy : ∀ {store creator codeID seed payload gasLimit gasUsed store' address events},
    runtime.deployMeteredInTransaction store creator codeID seed payload gasLimit =
      (gasUsed, .ok (store', address, events)) → SameFunds store store'
  call : ∀ {store address caller method payload gasLimit gasUsed store' events},
    runtime.callMeteredInTransaction store address caller method payload gasLimit =
      (gasUsed, .ok (store', events)) → SameFunds store store'

/-! ### The moves a transaction states -/

def transferMove (fromAddress toAddress : String) (value : UInt64) (a : Address) : ℤ :=
  (if a = normalize toAddress then (value.toNat : ℤ) else 0) -
    if a = normalize fromAddress then (value.toNat : ℤ) else 0

def operationMove (fromAddress : String) (operation : BatchOperation) (a : Address) : ℤ :=
  if operation.type = .transfer then transferMove fromAddress operation.toAddress operation.value a else 0

/-- The stated change of a balance: transfers, batch transfers, stake and unstake. -/
def valueMoves (tx : Transaction) (a : Address) : ℤ :=
  match tx.type with
  | .transfer => transferMove tx.fromAddress tx.toAddress tx.value a
  | .batch => (tx.batch.map fun operation => operationMove tx.fromAddress operation a).sum
  | .stake => if a = normalize tx.fromAddress then -(tx.value.toNat : ℤ) else 0
  | .unstake => if a = normalize tx.fromAddress then (tx.value.toNat : ℤ) else 0
  | _ => 0

/-- The stake a successful slash destroys: all of the target's. -/
def slashedStake [Primitives] (s : Store) (tx : Transaction) (a : Address) : Nat :=
  match tx.type, parseSlashPayload tx.payload with
  | .validatorSlash, .ok evidence => if a = normalize evidence.target then s.stake a else 0
  | _, _ => 0

/-- All the stake a successful transaction destroys. -/
def destroyedStake [Primitives] (s : Store) (tx : Transaction) : Nat :=
  match tx.type, parseSlashPayload tx.payload with
  | .validatorSlash, .ok evidence => s.stake (normalize evidence.target)
  | _, _ => 0

/-- The stated change of a stake. -/
def stakeMoves [Primitives] (s : Store) (tx : Transaction) (a : Address) : ℤ :=
  match tx.type with
  | .stake => if a = normalize tx.fromAddress then (tx.value.toNat : ℤ) else 0
  | .unstake => if a = normalize tx.fromAddress then -(tx.value.toNat : ℤ) else 0
  | _ => -(slashedStake s tx a : ℤ)

/-! ### Moves -/

/-- Balances and stakes change by the given amounts, `destroyed` leaves the supply, nonces stay. -/
structure Moves (value stakes : Address → ℤ) (destroyed : Nat) (s s' : Store) : Prop where
  nonce : ∀ a, s'.nonceOf a = s.nonceOf a
  balance : ∀ a, (s'.balance a : ℤ) = s.balance a + value a
  stake : ∀ a, (s'.stake a : ℤ) = s.stake a + stakes a
  supply : s'.supply + destroyed = s.supply

theorem moves_of_sameFunds (h : SameFunds s s') : Moves (fun _ => 0) (fun _ => 0) 0 s s' where
  nonce := h.nonce
  balance a := by rw [h.balance a, add_zero]
  stake a := by rw [h.stake a, add_zero]
  supply := h.supply

theorem Moves.trans {value value' stakes stakes' : Address → ℤ} {destroyed destroyed' : Nat}
    (h : Moves value stakes destroyed s s') (h' : Moves value' stakes' destroyed' s' s'') :
    Moves (fun a => value a + value' a) (fun a => stakes a + stakes' a) (destroyed + destroyed') s s'' where
  nonce a := (h'.nonce a).trans (h.nonce a)
  balance a := by rw [h'.balance a, h.balance a]; ring
  stake a := by rw [h'.stake a, h.stake a]; ring
  supply := by have := h.supply; have := h'.supply; omega

theorem Moves.congr {value value' stakes stakes' : Address → ℤ} {destroyed destroyed' : Nat}
    (h : Moves value stakes destroyed s s') (hv : ∀ a, value a = value' a) (hs : ∀ a, stakes a = stakes' a)
    (hd : destroyed = destroyed') : Moves value' stakes' destroyed' s s' := by
  have hv : value = value' := funext hv
  have hs : stakes = stakes' := funext hs
  subst hv hs hd
  exact h

theorem transfer_moves {fromAddress toAddress : String} {amount : UInt64}
    (h : s.transfer fromAddress toAddress amount = .ok s') :
    Moves (transferMove fromAddress toAddress amount) (fun _ => 0) 0 s s' := by
  obtain ⟨f, n, b, t⟩ := transfer_spec h
  refine ⟨n, fun a => ?_, fun a => by rw [f.stake a, add_zero], t⟩
  have := b a
  unfold transferMove
  split_ifs at this ⊢ <;> omega

theorem executeBatchOperation_moves {operation : BatchOperation} {index : Nat} {gasLimit : UInt64}
    {events : List Event} (hr : runtime.KeepsFunds)
    (h : (executeBatchOperation runtime s tx operation index gasLimit).2 = .ok (s', events)) :
    Moves (operationMove tx.fromAddress operation) (fun _ => 0) 0 s s' := by
  unfold executeBatchOperation at h
  split at h
  · next htype =>
    simp only [bind_ok, pure_eq_ok, Except.ok.injEq, Prod.mk.injEq] at h
    obtain ⟨moved, hmove, rfl, -⟩ := h
    exact (transfer_moves hmove).congr (fun a => by simp [operationMove, htype]) (fun _ => rfl) rfl
  · next htype =>
    simp only [bind_ok, pure_eq_ok, Except.ok.injEq, Prod.mk.injEq] at h
    obtain ⟨⟨called, new⟩, hcall, rfl, -⟩ := h
    exact (moves_of_sameFunds (hr.call (Prod.ext rfl hcall))).congr
      (fun a => by simp [operationMove, htype]) (fun _ => rfl) rfl
  · exact absurd h (by simp)

theorem continueBatch_ok {rest : Store → UInt64 → List Event → UInt64 × Result (Store × List Event)}
    {events : List Event} {ran : UInt64 × Result (Store × List Event)} {done : Store × List Event}
    (h : (continueBatch rest events ran).2 = .ok done) :
    ∃ store gas new, ran.2 = .ok (store, new) ∧ (rest store gas (events ++ new)).2 = .ok done := by
  obtain ⟨gas, err | ⟨store, new⟩⟩ := ran
  · cases h
  · exact ⟨store, gas, new, rfl, h⟩

/-- Along a batch the moves of its operations add up. -/
theorem executeBatch_moves (hr : runtime.KeepsFunds) (operations : List (BatchOperation × Nat))
    (s : Store) (gasUsed : UInt64) (events : List Event) {events' : List Event}
    (h : (executeBatch runtime tx operations s gasUsed events).2 = .ok (s', events')) :
    Moves (fun a => (operations.map fun entry => operationMove tx.fromAddress entry.1 a).sum)
      (fun _ => 0) 0 s s' := by
  induction operations generalizing s gasUsed events with
  | nil =>
    cases h
    exact moves_of_sameFunds (SameFunds.refl _)
  | cons entry rest ih =>
    obtain ⟨store, gas, new, hran, h⟩ := continueBatch_ok h
    exact ((executeBatchOperation_moves hr (chargeGas_ok hran)).trans (ih _ _ _ h)).congr
      (fun a => by simp) (fun _ => by simp) rfl

theorem executeTransfer_moves {events : List Event} (h : executeTransfer s tx = .ok (s', events)) :
    Moves (transferMove tx.fromAddress tx.toAddress tx.value) (fun _ => 0) 0 s s' := by
  simp only [executeTransfer, bind_ok, pure_eq_ok, Except.ok.injEq, Prod.mk.injEq] at h
  obtain ⟨moved, hmove, ⟨used, event⟩, huse, rfl, -⟩ := h
  exact ((transfer_moves hmove).trans (moves_of_sameFunds (applySessionKeyUsage_writes huse).sameFunds)).congr
    (fun a => by simp) (fun _ => by simp) rfl

theorem executeStake_moves {events : List Event} (h : executeStake s tx = .ok (s', events)) :
    Moves (fun a => if a = normalize tx.fromAddress then -(tx.value.toNat : ℤ) else 0)
      (fun a => if a = normalize tx.fromAddress then (tx.value.toNat : ℤ) else 0) 0 s s' := by
  simp only [executeStake, bind_ok, refuseIf_ok, exists_const, pure_eq_ok, Except.ok.injEq,
    Prod.mk.injEq] at h
  obtain ⟨-, debited, hsub, staked, hstake, rfl, -⟩ := h
  obtain ⟨f, n, b, t⟩ := subBalance_spec hsub
  obtain ⟨e, st, t'⟩ := addStake_spec hstake
  refine ⟨fun a => ?_, fun a => ?_, fun a => ?_, by omega⟩
  · rw [← n a]; unfold nonceOf; rw [e]
  · have := b a
    have hb : staked.balance a = debited.balance a := by unfold Store.balance; rw [e]
    rw [hb]
    split_ifs at this ⊢ <;> omega
  · have := f.stake a
    rw [st a, this]
    split_ifs <;> simp

theorem executeUnstake_moves {events : List Event} (h : executeUnstake s tx context = .ok (s', events)) :
    Moves (fun a => if a = normalize tx.fromAddress then (tx.value.toNat : ℤ) else 0)
      (fun a => if a = normalize tx.fromAddress then -(tx.value.toNat : ℤ) else 0) 0 s s' := by
  simp only [executeUnstake, bind_ok, refuseIf_ok, exists_const, pure_eq_ok, Except.ok.injEq,
    Prod.mk.injEq] at h
  obtain ⟨-, -, unstaked, hunstake, credited, hadd, rfl, -⟩ := h
  obtain ⟨e, st, t⟩ := subStake_spec hunstake
  obtain ⟨f, n, b, t'⟩ := addBalance_spec hadd
  refine ⟨fun a => ?_, fun a => ?_, fun a => ?_, by omega⟩
  · rw [n a]; unfold nonceOf; rw [e]
  · have hb : unstaked.balance a = s.balance a := by unfold Store.balance; rw [e]
    rw [b a, hb]
    split_ifs <;> simp
  · have := st a
    rw [f.stake a]
    split_ifs at this ⊢ <;> omega

theorem executeSlash_moves [Primitives] {events : List Event} (htype : tx.type = .validatorSlash)
    (h : executeSlash s tx = .ok (s', events)) :
    Moves (fun _ => 0) (fun a => -(slashedStake s tx a : ℤ)) (destroyedStake s tx) s s' := by
  simp only [executeSlash, bind_ok, refuseIf_ok, exists_const, pure_eq_ok, Except.ok.injEq,
    Prod.mk.injEq] at h
  obtain ⟨evidence, hparse, _, -, -, -, -, -, slashed, hslash, rfl, -⟩ := h
  obtain ⟨e, st, t⟩ := subStake_spec hslash
  rw [toNat_stakeOf] at st t
  have hparam := sameFunds_setParam slashed
    ("slash:offence:" ++ finalityEquivocationOffenceID tx.chainID evidence.target evidence.height) "consumed"
  refine ⟨fun a => ?_, fun a => ?_, fun a => ?_, ?_⟩
  · rw [hparam.nonce a]; unfold nonceOf; rw [e]
  · rw [hparam.balance a, add_zero]; unfold Store.balance; rw [e]
  · have := st a
    rw [hparam.stake a]
    simp only [slashedStake, htype, hparse]
    split_ifs at this ⊢ with hc
    · subst hc; omega
    · omega
  · rw [hparam.supply]
    simp only [destroyedStake, htype, hparse]
    exact t

theorem executeSetCode_sameFunds {event : Event} (h : executeSetCode s tx = .ok (s', event)) :
    SameFunds s s' := by
  simp only [executeSetCode, bind_ok, refuseIf_ok, exists_const] at h
  obtain ⟨-, h⟩ := h
  split at h
  · cases h
    exact sameFunds_clearDelegation _ _
  · simp only [bind_ok, refuseIf_ok, exists_const, pure_eq_ok, Except.ok.injEq, Prod.mk.injEq] at h
    obtain ⟨-, -, owner, -, -, written, hset, rfl, -⟩ := h
    exact ((sameFunds_clearDelegation _ _).trans (sameFunds_setDelegatedCodeID _ _ _)).trans
      (setStorage_frame hset).sameFunds

theorem setValidatorLifecycle_sameFunds [Primitives] {lifecycle : ValidatorLifecycle}
    (h : s.setValidatorLifecycle lifecycle = .ok s') : SameFunds s s' := by
  simp only [setValidatorLifecycle, bind_ok, pure_eq_ok, Except.ok.injEq] at h
  obtain ⟨_, -, rfl⟩ := h
  exact sameFunds_of_maps rfl rfl

theorem executeRuntimeValidatorAdmission_sameFunds [Primitives] {event : Event}
    (h : executeRuntimeValidatorAdmission s tx context = .ok (s', event)) : SameFunds s s' := by
  simp only [executeRuntimeValidatorAdmission, bind_ok, refuseIf_ok, exists_const, pure_eq_ok,
    Except.ok.injEq, Prod.mk.injEq] at h
  obtain ⟨-, -, _, -, -, _, -, -, -, _, -, -, _, -, _, -, written, hset, rfl, -⟩ := h
  exact setValidatorLifecycle_sameFunds hset

theorem executeUpload_sameFunds [Primitives] {codeID : String} {events : List Event}
    (h : executeUpload runtime s tx = .ok (s', codeID, events)) : SameFunds s s' := by
  simp only [executeUpload, bind_ok, pure_eq_ok, Except.ok.injEq, Prod.mk.injEq] at h
  obtain ⟨_, -, _, -, rfl, -⟩ := h
  exact sameFunds_setContractCode _ _

theorem executeDeploy_sameFunds [Primitives] {gasUsed : UInt64} {address : String} {events : List Event}
    (hr : runtime.KeepsFunds) (h : (executeDeploy runtime s tx gasUsed).2 = .ok (s', address, events)) :
    SameFunds s s' :=
  hr.deploy (Prod.ext rfl (chargeGas_ok h))

theorem executeCall_sameFunds {gasUsed : UInt64} {events : List Event} (hr : runtime.KeepsFunds)
    (h : (executeCall runtime s tx gasUsed).2 = .ok (s', events)) : SameFunds s s' := by
  simp only [executeCall, bind_ok, pure_eq_ok, Except.ok.injEq, Prod.mk.injEq] at h
  obtain ⟨⟨called, new⟩, hcall, ⟨used, event⟩, huse, rfl, -⟩ := h
  exact (hr.call (Prod.ext rfl (chargeGas_ok hcall))).trans (applySessionKeyUsage_writes huse).sameFunds

theorem moves_of_sameFunds_of_type [Primitives] (hfunds : SameFunds s s') (hv : ∀ a, valueMoves tx a = 0)
    (hs : ∀ a, stakeMoves s tx a = 0) (hd : destroyedStake s tx = 0) :
    Moves (valueMoves tx) (stakeMoves s tx) (destroyedStake s tx) s s' :=
  (moves_of_sameFunds hfunds).congr (fun a => (hv a).symm) (fun a => (hs a).symm) hd.symm

/-- A message that succeeds makes exactly the moves its transaction states. -/
theorem executeMessage_moves [Primitives] {gasUsed : UInt64} {receipt receipt' : Receipt}
    (hr : runtime.KeepsFunds)
    (h : (executeMessage runtime s tx context gasUsed receipt).2 = .ok (s', receipt')) :
    receipt'.success = receipt.success ∧
      Moves (valueMoves tx) (stakeMoves s tx) (destroyedStake s tx) s s' := by
  cases htype : tx.type with
  | transfer =>
    simp only [executeMessage, htype, bind_ok, pure_eq_ok, Except.ok.injEq, Prod.mk.injEq] at h
    obtain ⟨done, hrun, rfl, rfl⟩ := h
    refine ⟨rfl, (executeTransfer_moves hrun).congr ?_ ?_ ?_⟩ <;>
      simp [valueMoves, stakeMoves, slashedStake, destroyedStake, htype]
  | batch =>
    simp only [executeMessage, htype, bind_ok, pure_eq_ok, Except.ok.injEq, Prod.mk.injEq] at h
    obtain ⟨done, hrun, rfl, rfl⟩ := h
    refine ⟨rfl, (executeBatch_moves hr _ _ _ _ hrun).congr ?_ ?_ ?_⟩
    · intro a
      simp only [valueMoves, htype]
      rw [show (fun entry : BatchOperation × Nat => operationMove tx.fromAddress entry.1 a) =
        (fun operation => operationMove tx.fromAddress operation a) ∘ Prod.fst from rfl,
        ← List.map_map, List.zipIdx_map_fst]
    · simp [stakeMoves, slashedStake, htype]
    · simp [destroyedStake, htype]
  | stake =>
    simp only [executeMessage, htype, bind_ok, pure_eq_ok, Except.ok.injEq, Prod.mk.injEq] at h
    obtain ⟨done, hrun, rfl, rfl⟩ := h
    refine ⟨rfl, (executeStake_moves hrun).congr ?_ ?_ ?_⟩ <;>
      simp [valueMoves, stakeMoves, destroyedStake, htype]
  | unstake =>
    simp only [executeMessage, htype, bind_ok, pure_eq_ok, Except.ok.injEq, Prod.mk.injEq] at h
    obtain ⟨done, hrun, rfl, rfl⟩ := h
    refine ⟨rfl, (executeUnstake_moves hrun).congr ?_ ?_ ?_⟩ <;>
      simp [valueMoves, stakeMoves, destroyedStake, htype]
  | validatorSlash =>
    simp only [executeMessage, htype, bind_ok, pure_eq_ok, Except.ok.injEq, Prod.mk.injEq] at h
    obtain ⟨done, hrun, rfl, rfl⟩ := h
    refine ⟨rfl, (executeSlash_moves htype hrun).congr ?_ ?_ rfl⟩ <;>
      simp [valueMoves, stakeMoves, htype]
  | validatorJoin =>
    simp only [executeMessage, htype, bind_ok, pure_eq_ok, Except.ok.injEq, Prod.mk.injEq] at h
    obtain ⟨done, hrun, rfl, rfl⟩ := h
    refine ⟨rfl, moves_of_sameFunds_of_type (executeRuntimeValidatorAdmission_sameFunds hrun) ?_ ?_ ?_⟩ <;>
      simp [valueMoves, stakeMoves, slashedStake, destroyedStake, htype]
  | setCode =>
    simp only [executeMessage, htype, bind_ok, pure_eq_ok, Except.ok.injEq, Prod.mk.injEq] at h
    obtain ⟨done, hrun, rfl, rfl⟩ := h
    refine ⟨rfl, moves_of_sameFunds_of_type (executeSetCode_sameFunds hrun) ?_ ?_ ?_⟩ <;>
      simp [valueMoves, stakeMoves, slashedStake, destroyedStake, htype]
  | sessionKey =>
    simp only [executeMessage, htype, bind_ok, pure_eq_ok, Except.ok.injEq, Prod.mk.injEq] at h
    obtain ⟨done, hrun, rfl, rfl⟩ := h
    refine ⟨rfl, moves_of_sameFunds_of_type (executeSessionKey_writes hrun).sameFunds ?_ ?_ ?_⟩ <;>
      simp [valueMoves, stakeMoves, slashedStake, destroyedStake, htype]
  | accountRecovery =>
    simp only [executeMessage, htype, bind_ok, pure_eq_ok, Except.ok.injEq, Prod.mk.injEq] at h
    obtain ⟨done, hrun, rfl, rfl⟩ := h
    refine ⟨rfl, moves_of_sameFunds_of_type (executeAccountRecovery_writes hrun).sameFunds ?_ ?_ ?_⟩ <;>
      simp [valueMoves, stakeMoves, slashedStake, destroyedStake, htype]
  | wasmUpload =>
    simp only [executeMessage, htype, bind_ok, pure_eq_ok, Except.ok.injEq, Prod.mk.injEq] at h
    obtain ⟨done, hrun, rfl, rfl⟩ := h
    refine ⟨rfl, moves_of_sameFunds_of_type (executeUpload_sameFunds hrun) ?_ ?_ ?_⟩ <;>
      simp [valueMoves, stakeMoves, slashedStake, destroyedStake, htype]
  | deploy =>
    simp only [executeMessage, htype, bind_ok, pure_eq_ok, Except.ok.injEq, Prod.mk.injEq] at h
    obtain ⟨done, hrun, rfl, rfl⟩ := h
    refine ⟨rfl, moves_of_sameFunds_of_type (executeDeploy_sameFunds hr hrun) ?_ ?_ ?_⟩ <;>
      simp [valueMoves, stakeMoves, slashedStake, destroyedStake, htype]
  | call =>
    simp only [executeMessage, htype, bind_ok, pure_eq_ok, Except.ok.injEq, Prod.mk.injEq] at h
    obtain ⟨done, hrun, rfl, rfl⟩ := h
    refine ⟨rfl, moves_of_sameFunds_of_type (executeCall_sameFunds hr hrun) ?_ ?_ ?_⟩ <;>
      simp [valueMoves, stakeMoves, slashedStake, destroyedStake, htype]
  | proposalSubmit | vote | proposalExecute | validatorLeave | unknown =>
    simp [executeMessage, htype] at h

end ChainLab.Core
