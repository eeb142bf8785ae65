import ChainLab.Core.Executor
import ChainLab.State.Storage
import Mathlib.Logic.Relation

/-! What the account messages write: session keys and recovery rounds live in the storage of the
account that sends the message. -/

namespace ChainLab.Core

open ChainLab.Lib ChainLab.Types ChainLab.Crypto ChainLab.State ChainLab.State.Store Relation

/-- One write to the storage of an account. -/
inductive StorageWrite (address : String) (s : Store) : Store → Prop
  | set {s' : Store} {key value : String} (written : s.setStorage address key value = .ok s') : StorageWrite address s s'
  | delete (key : String) : StorageWrite address s (s.deleteStorage address key)
  | deletePrefix (keyPrefix : String) : StorageWrite address s (s.deleteStoragePrefix address keyPrefix)

/-- Writes to the storage of an account. -/
abbrev StorageWrites (address : String) : Store → Store → Prop := ReflTransGen (StorageWrite address)

variable {s s' : Store} {tx : Transaction} {blockHeight : UInt64} {attributes : Fields} {event : Event} {address : String}

namespace StorageWrites

theorem sameFunds (h : StorageWrites address s s') : SameFunds s s' := by
  induction h with
  | refl => exact SameFunds.refl s
  | tail _ hwrite ih =>
    refine ih.trans ?_
    cases hwrite with
    | set written => exact (setStorage_frame written).sameFunds
    | delete key => exact (deleteStorage_frame _ _ key).sameFunds
    | deletePrefix keyPrefix => exact (deleteStoragePrefix_frame _ _ keyPrefix).sameFunds

theorem set {key value : String} (written : s.setStorage address key value = .ok s') : StorageWrites address s s' :=
  .single (.set written)

/-- A loop of deletions. -/
theorem deleteKeys {ι : Type} (name : ι → String) (keys : List ι) (s : Store) :
    StorageWrites address s (keys.foldl (fun store key => store.deleteStorage address (name key)) s) := by
  induction keys generalizing s with
  | nil => exact .refl
  | cons key rest ih => exact .head (.delete _) (ih _)

end StorageWrites

/-! ### Session keys -/

theorem applySessionKeyUsage_writes {used : Option Event} (h : applySessionKeyUsage s tx = .ok (s', used)) :
    StorageWrites tx.fromAddress s s' := by
  unfold applySessionKeyUsage at h
  simp only at h
  split at h
  · cases h
    exact .refl
  · simp only [bind_ok] at h
    obtain ⟨policy, -, h⟩ := h
    split at h
    · cases h
      exact .refl
    · simp only [bind_ok, pure_eq_ok, Except.ok.injEq, Prod.mk.injEq] at h
      obtain ⟨spent, -, written, hset, rfl, -⟩ := h
      exact .set hset

theorem putPolicyField_writes {key : String} {value : Option String}
    (h : putPolicyField s address key value = .ok s') : StorageWrites address s s' := by
  cases value with
  | some text => exact .set h
  | none =>
    cases h
    exact .single (.delete key)

theorem addSessionKey_writes {key : String} (h : addSessionKey s tx key attributes = .ok (s', event)) :
    StorageWrites tx.fromAddress s s' := by
  simp only [addSessionKey, bind_ok, refuseIf_ok, exists_const, pure_eq_ok, Except.ok.injEq,
    Prod.mk.injEq] at h
  obtain ⟨-, _, -, _, -, _, -, _, -, -, -, s1, h1, s2, h2, s3, h3, s4, h4, s5, h5, s6, h6, _, -, s7, h7, rfl, -⟩ := h
  refine ReflTransGen.tail ?_ (.set h7)
  exact (((((putPolicyField_writes h1).trans (putPolicyField_writes h2)).trans (putPolicyField_writes h3)).trans
    (putPolicyField_writes h4)).trans (putPolicyField_writes h5)).trans (putPolicyField_writes h6)

theorem executeSessionKey_writes (h : executeSessionKey s tx = .ok (s', event)) :
    StorageWrites tx.fromAddress s s' := by
  simp only [executeSessionKey, bind_ok, refuseIf_ok, exists_const] at h
  obtain ⟨-, -, -, -, h⟩ := h
  split at h
  · exact addSessionKey_writes h
  · split at h
    · simp only [pure_eq_ok, Except.ok.injEq, Prod.mk.injEq] at h
      obtain ⟨rfl, -⟩ := h
      exact .deleteKeys _ _ _
    · exact absurd h (by simp)

/-! ### Recovery -/

theorem clearPendingRecovery_writes (s : Store) (address : String) :
    StorageWrites address s (clearPendingRecovery s address) :=
  .deleteKeys id _ _

theorem configureRecovery_writes (h : configureRecovery s tx attributes = .ok (s', event)) :
    StorageWrites tx.fromAddress s s' := by
  simp only [configureRecovery, bind_ok, refuseIf_ok, exists_const, pure_eq_ok, Except.ok.injEq,
    Prod.mk.injEq] at h
  obtain ⟨_, -, _, -, _, -, -, _, -, s1, h1, s2, h2, s3, h3, rfl, -⟩ := h
  exact (((StorageWrites.set h1).tail (.set h2)).tail (.set h3)).trans (clearPendingRecovery_writes _ _)

theorem currentRecoveryRound_writes {round : String × String}
    (h : currentRecoveryRound s address blockHeight = .ok (s', round)) : StorageWrites address s s' := by
  simp only [currentRecoveryRound, bind_ok, refuseIf_ok, exists_const] at h
  obtain ⟨-, h⟩ := h
  split at h
  · cases h
    exact .refl
  · simp only [bind_ok] at h
    obtain ⟨_, -, h⟩ := h
    split at h
    · cases h
      exact clearPendingRecovery_writes _ _
    · cases h
      exact .refl

theorem openRecovery_writes {newOwner : String} {approvals : List String} {delay : UInt64} {heights : String × String}
    (h : openRecovery s address newOwner approvals blockHeight delay = .ok (s', heights)) :
    StorageWrites address s s' := by
  simp only [openRecovery, bind_ok, pure_eq_ok, Except.ok.injEq, Prod.mk.injEq] at h
  obtain ⟨_, -, _, -, s1, h1, s2, h2, s3, h3, s4, h4, rfl, -⟩ := h
  exact ((((StorageWrites.set h1).tail (.set h2)).tail (.set h3)).tail (.set h4)).tail (.delete _)

theorem continueRecovery_writes {expiresAtRaw : String} {heights : String × String}
    (h : continueRecovery s address blockHeight expiresAtRaw = .ok (s', heights)) : StorageWrites address s s' := by
  simp only [continueRecovery, bind_ok, refuseIf_ok, exists_const] at h
  obtain ⟨-, h⟩ := h
  split at h
  · simp only [bind_ok, pure_eq_ok, Except.ok.injEq, Prod.mk.injEq] at h
    obtain ⟨_, -, s1, h1, rfl, -⟩ := h
    exact .set h1
  · cases h
    exact .refl

theorem approveRecovery_writes {signer : String}
    (h : approveRecovery s tx signer blockHeight attributes = .ok (s', event)) :
    StorageWrites tx.fromAddress s s' := by
  simp only [approveRecovery, bind_ok] at h
  obtain ⟨newOwner, -, _, -, guardians, -, threshold, -, delay, -, ⟨s1, pending, expires⟩, hround, h⟩ := h
  have hfirst := currentRecoveryRound_writes hround
  split at h
  · simp at h
  · simp only [bind_ok, pure_eq_ok, Except.ok.injEq, Prod.mk.injEq] at h
    obtain ⟨_, -, _, -, s2, h2, ⟨s3, heights⟩, h3, rfl, -⟩ := h
    refine (hfirst.tail (.set h2)).trans ?_
    split at h3
    · exact openRecovery_writes h3
    · exact continueRecovery_writes h3

theorem executeRecovery_writes {signer : String}
    (h : executeRecovery s tx signer blockHeight attributes = .ok (s', event)) :
    StorageWrites tx.fromAddress s s' := by
  simp only [executeRecovery, bind_ok, refuseIf_ok, exists_const, pure_eq_ok, Except.ok.injEq,
    Prod.mk.injEq] at h
  obtain ⟨_, -, _, -, _, -, _, -, -, _, -, -, _, -, -, -, _, -, -, _, -, -, -, _, -, -, s1, h1, s2, h2, rfl, -⟩ := h
  exact ((StorageWrites.set h1).tail (.set h2)).trans (clearPendingRecovery_writes _ _)

theorem executeAccountRecovery_writes (h : executeAccountRecovery s tx blockHeight = .ok (s', event)) :
    StorageWrites tx.fromAddress s s' := by
  simp only [executeAccountRecovery, bind_ok] at h
  obtain ⟨action, -, h⟩ := h
  split at h
  · exact configureRecovery_writes h
  · split at h
    · exact approveRecovery_writes h
    · split at h
      · exact executeRecovery_writes h
      · split at h
        · cases h
          exact clearPendingRecovery_writes _ _
        · cases h
          exact .single (.deletePrefix _)

end ChainLab.Core
