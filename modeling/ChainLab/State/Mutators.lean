import ChainLab.State.Snapshot
import ChainLab.State.Storage

/-! The mutators of a store as calls, and sequences of them on stores that are cloned from and replaced by
one another. -/

namespace ChainLab.State

open ChainLab.Lib ChainLab.Types ChainLab.Crypto

namespace Store

/-- `RemoveValidator`. -/
def removeValidator (s : Store) (address : String) : Result Store := do
  refuseIf ((normalize address).val = "") (newError "validator address is required")
  refuseIf (s.validators.length ≤ 1) (newError "cannot remove the last validator")
  refuseIf ((normalize address).val ∉ s.validators) (newError "validator is not active")
  return { s with
    validators := s.validators.erase (normalize address).val
    mutations := { s.mutations with validators := true } }

/-- `SetProposal`. -/
def setProposal (s : Store) (proposal : Proposal) : Store :=
  let proposal := { proposal with id := trimSpace proposal.id }
  if proposal.id = "" then s
  else { s with
    proposals := s.proposals.insert proposal.id proposal
    mutations := { s.mutations with proposals := insert proposal.id s.mutations.proposals } }

/-- The votes of a proposal without the power that a voter gave to an earlier choice. -/
def withdrawVote (proposal : Proposal) (voter : String) (power : UInt64) : GoMap String UInt64 :=
  (proposal.voters.lookup (normalize voter).val).elim proposal.votes fun previousChoice =>
    let previousPower := GoMap.get proposal.votes previousChoice
    proposal.votes.insert previousChoice (if previousPower ≥ power then previousPower - power else 0)

/-- `RecordVote`. -/
def recordVote (s : Store) (proposalID voter choice : String) (power : UInt64) : Result Store := do
  let proposal := s.proposal proposalID
  let votes := withdrawVote proposal voter power
  refuseIf (maxUint64 - GoMap.get votes choice < power) (newError "proposal vote power overflow")
  return s.setProposal { proposal with
    votes := votes.insert choice (GoMap.get votes choice + power)
    voters := proposal.voters.insert (normalize voter).val choice }

/-- Go on from the store a call returns, or stay where it fails. -/
def proceed (failed : Store) (next : Store → Store) : Result Store → Store
  | .ok s => next s
  | .error _ => failed

/-- What a call that may fail leaves: the store it returns, or the store as it was. -/
def afterCall (s : Store) (outcome : Result Store) : Store := proceed s id outcome

/-- What `Transfer` leaves: where the credit fails, the debit is paid back. -/
def afterTransfer (s : Store) (fromAddress toAddress : String) (amount : UInt64) : Store :=
  if amount = 0 then s
  else proceed s (fun debited => proceed (debited.afterCall (debited.addBalance fromAddress amount)) id
    (debited.addBalance toAddress amount)) (s.subBalance fromAddress amount)

end Store

/-- A call of a mutator. -/
inductive Mutator where
  | setBalance (address : String) (amount : UInt64)
  | addBalance (address : String) (amount : UInt64)
  | subBalance (address : String) (amount : UInt64)
  | transfer (fromAddress toAddress : String) (amount : UInt64)
  | incrementNonce (address : String)
  | setNonce (address : String) (nonce : UInt64)
  | setCodeID (address codeID : String)
  | setDelegatedCodeID (address codeID : String)
  | clearDelegation (address : String)
  | setStorage (address key value : String)
  | deleteStorage (address key : String)
  | deleteStoragePrefix (address keyPrefix : String)
  | setContractCode (code : ContractCode)
  | addStake (address : String) (amount : UInt64)
  | subStake (address : String) (amount : UInt64)
  | setProposal (proposal : Proposal)
  | recordVote (proposalID voter choice : String) (power : UInt64)
  | setParam (key value : String)
  | setValidators (validators : List String)
  | addValidator (address : String)
  | removeValidator (address : String)
  | initializeValidatorLifecycle (identities : List ValidatorIdentity)
  | setValidatorLifecycle (lifecycle : ValidatorLifecycle)

/-- The store a mutator leaves, whether or not it returns an error. -/
def Mutator.run [Primitives] (s : Store) : Mutator → Store
  | .setBalance address amount => s.setBalance address amount
  | .addBalance address amount => s.afterCall (s.addBalance address amount)
  | .subBalance address amount => s.afterCall (s.subBalance address amount)
  | .transfer fromAddress toAddress amount => s.afterTransfer fromAddress toAddress amount
  | .incrementNonce address => s.afterCall (s.incrementNonce address)
  | .setNonce address nonce => s.setNonce address nonce
  | .setCodeID address codeID => s.setCodeID address codeID
  | .setDelegatedCodeID address codeID => s.setDelegatedCodeID address codeID
  | .clearDelegation address => s.clearDelegation address
  | .setStorage address key value => s.afterCall (s.setStorage address key value)
  | .deleteStorage address key => s.deleteStorage address key
  | .deleteStoragePrefix address keyPrefix => s.deleteStoragePrefix address keyPrefix
  | .setContractCode code => s.setContractCode code
  | .addStake address amount => s.afterCall (s.addStake address amount)
  | .subStake address amount => s.afterCall (s.subStake address amount)
  | .setProposal proposal => s.setProposal proposal
  | .recordVote proposalID voter choice power => s.afterCall (s.recordVote proposalID voter choice power)
  | .setParam key value => s.setParam key value
  | .setValidators validators => s.afterCall (s.setValidators validators)
  | .addValidator address => s.afterCall (s.addValidator address)
  | .removeValidator address => s.afterCall (s.removeValidator address)
  | .initializeValidatorLifecycle identities => s.afterCall (s.initializeValidatorLifecycle identities)
  | .setValidatorLifecycle lifecycle => s.afterCall (s.setValidatorLifecycle lifecycle)

/-- A call on one of several stores: a mutator, `Clone`, or `ReplaceWith` another of them. -/
inductive StoreCall where
  | mutate (i : Nat) (mutator : Mutator)
  | clone (i : Nat)
  | replaceWith (i other : Nat)

/-- The stores after a call. A clone is a new store with the same contents, journal and cached sizes. -/
def StoreCall.run [Primitives] (stores : List Store) : StoreCall → List Store
  | .mutate i mutator => stores.modify i fun s => mutator.run s
  | .clone i => stores ++ stores[i]?.toList
  | .replaceWith i other => stores[other]?.elim stores fun s => stores.set i s

/-- The stores after a sequence of calls. -/
def runCalls [Primitives] (stores : List Store) (calls : List StoreCall) : List Store := calls.foldl StoreCall.run stores

section Rules

variable {s s' : Store} {P : Store → Prop}

theorem Store.proceed_rule {failed : Store} {next : Store → Store} {outcome : Result Store} (hfailed : P failed)
    (hok : ∀ s', outcome = .ok s' → P (next s')) : P (proceed failed next outcome) := by
  cases outcome with
  | error err => exact hfailed
  | ok s' => exact hok s' rfl

theorem Store.afterCall_rule {outcome : Result Store} (hs : P s) (hok : ∀ s', outcome = .ok s' → P s') :
    P (s.afterCall outcome) :=
  proceed_rule hs hok

/-- `Transfer` leaves a store that a debit and credits lead to. -/
theorem Store.afterTransfer_rule {fromAddress toAddress : String} {amount : UInt64} (hs : P s)
    (hsub : ∀ s', s.subBalance fromAddress amount = .ok s' → P s')
    (hadd : ∀ s' s'' address, P s' → s'.addBalance address amount = .ok s'' → P s'') :
    P (s.afterTransfer fromAddress toAddress amount) := by
  unfold afterTransfer
  by_cases hzero : amount = 0
  · rw [if_pos hzero]
    exact hs
  · rw [if_neg hzero]
    refine proceed_rule hs fun debited hdebit => ?_
    have hdebited := hsub debited hdebit
    refine proceed_rule ?_ fun credited hcredit => hadd debited credited toAddress hdebited hcredit
    exact afterCall_rule hdebited fun s' h => hadd debited s' fromAddress hdebited h

theorem ite_rule {c : Prop} [Decidable c] (hs : P s) (hs' : P s') : P (if c then s else s') := by
  split
  · exact hs
  · exact hs'

variable [Primitives] {stores : List Store}

/-- A property that every write of the mutators keeps. -/
structure KeptByWrites (P : Store → Prop) : Prop where
  writeAccount : ∀ {s a account mark}, P s → account.storage = (s.entry a).storage → P (s.writeAccount a account mark)
  setStorage : ∀ {s s' address key value}, P s → s.setStorage address key value = .ok s' → P s'
  deleteStorage : ∀ {s}, P s → ∀ address key, P (s.deleteStorage address key)
  deleteStoragePrefix : ∀ {s}, P s → ∀ address keyPrefix, P (s.deleteStoragePrefix address keyPrefix)
  setContractCode : ∀ {s}, P s → ∀ code, P (s.setContractCode code)
  writeStake : ∀ {s}, P s → ∀ a stake amount, P (s.writeStake a stake amount)
  setProposal : ∀ {s}, P s → ∀ proposal, P (s.setProposal proposal)
  setParam : ∀ {s}, P s → ∀ key value, P (s.setParam key value)
  validators : ∀ {s}, P s → ∀ validators, P { s with validators, mutations := { s.mutations with validators := true } }
  setValidatorLifecycle : ∀ {s s' lifecycle}, P s → s.setValidatorLifecycle lifecycle = .ok s' → P s'

namespace KeptByWrites

variable (hP : KeptByWrites P)
include hP

theorem addBalance {address : String} {amount : UInt64} (hs : P s) (h : s.addBalance address amount = .ok s') : P s' := by
  simp only [Store.addBalance, bind_ok, refuseIf_ok, exists_const, pure_eq_ok, Except.ok.injEq] at h
  obtain ⟨-, rfl⟩ := h
  exact hP.writeAccount hs rfl

theorem subBalance {address : String} {amount : UInt64} (hs : P s) (h : s.subBalance address amount = .ok s') : P s' := by
  simp only [Store.subBalance, bind_ok, refuseIf_ok, exists_const, pure_eq_ok, Except.ok.injEq] at h
  obtain ⟨-, rfl⟩ := h
  exact hP.writeAccount hs rfl

/-- A mutator is made of such writes, and of none where it fails. -/
theorem run (hs : P s) (mutator : Mutator) : P (mutator.run s) := by
  cases mutator with
  | setBalance address amount => exact ite_rule hs (hP.writeAccount hs rfl)
  | setNonce address nonce => exact ite_rule hs (hP.writeAccount hs rfl)
  | setCodeID address codeID => exact ite_rule hs (hP.writeAccount hs rfl)
  | setDelegatedCodeID address codeID => exact ite_rule hs (hP.writeAccount hs rfl)
  | addBalance address amount => exact Store.afterCall_rule hs fun _ => hP.addBalance hs
  | subBalance address amount => exact Store.afterCall_rule hs fun _ => hP.subBalance hs
  | transfer fromAddress toAddress amount =>
    exact Store.afterTransfer_rule hs (fun _ => hP.subBalance hs) fun _ _ _ => hP.addBalance
  | incrementNonce address =>
    refine Store.afterCall_rule hs fun s' h => ?_
    simp only [Store.incrementNonce, bind_ok, refuseIf_ok, exists_const, pure_eq_ok, Except.ok.injEq] at h
    obtain ⟨-, rfl⟩ := h
    exact hP.writeAccount hs rfl
  | clearDelegation address =>
    refine hP.deleteStoragePrefix (hP.deleteStoragePrefix (hP.deleteStorage ?_ _ _) _ _) _ _
    exact ite_rule (hP.writeAccount hs rfl) hs
  | setStorage address key value => exact Store.afterCall_rule hs fun _ => hP.setStorage hs
  | deleteStorage address key => exact hP.deleteStorage hs address key
  | deleteStoragePrefix address keyPrefix => exact hP.deleteStoragePrefix hs address keyPrefix
  | setContractCode code => exact hP.setContractCode hs code
  | addStake address amount =>
    refine Store.afterCall_rule hs fun s' h => ?_
    simp only [Store.addStake, bind_ok, refuseIf_ok, exists_const, pure_eq_ok, Except.ok.injEq] at h
    obtain ⟨-, rfl⟩ := h
    exact hP.writeStake hs _ _ _
  | subStake address amount =>
    refine Store.afterCall_rule hs fun s' h => ?_
    simp only [Store.subStake, bind_ok, refuseIf_ok, exists_const, pure_eq_ok, Except.ok.injEq] at h
    obtain ⟨-, rfl⟩ := h
    exact hP.writeStake hs _ _ _
  | setProposal proposal => exact hP.setProposal hs proposal
  | recordVote proposalID voter choice power =>
    refine Store.afterCall_rule hs fun s' h => ?_
    simp only [Store.recordVote, bind_ok, refuseIf_ok, exists_const, pure_eq_ok, Except.ok.injEq] at h
    obtain ⟨-, rfl⟩ := h
    exact hP.setProposal hs _
  | setParam key value => exact hP.setParam hs key value
  | setValidators validators =>
    refine Store.afterCall_rule hs fun s' h => ?_
    simp only [Store.setValidators, bind_ok, refuseIf_ok, exists_const, pure_eq_ok, Except.ok.injEq] at h
    obtain ⟨-, -, _, -, rfl⟩ := h
    exact hP.validators hs _
  | addValidator address =>
    refine Store.afterCall_rule hs fun s' h => ?_
    simp only [Store.addValidator, bind_ok, refuseIf_ok, exists_const, pure_eq_ok, Except.ok.injEq] at h
    obtain ⟨-, -, -, rfl⟩ := h
    exact hP.validators hs _
  | removeValidator address =>
    refine Store.afterCall_rule hs fun s' h => ?_
    simp only [Store.removeValidator, bind_ok, refuseIf_ok, exists_const, pure_eq_ok, Except.ok.injEq] at h
    obtain ⟨-, -, -, rfl⟩ := h
    exact hP.validators hs _
  | initializeValidatorLifecycle identities =>
    refine Store.afterCall_rule hs fun s' h => ?_
    simp only [Store.initializeValidatorLifecycle, bind_ok, refuseIf_ok, exists_const] at h
    obtain ⟨-, _, -, hset⟩ := h
    exact hP.setValidatorLifecycle hs hset
  | setValidatorLifecycle lifecycle => exact Store.afterCall_rule hs fun _ => hP.setValidatorLifecycle hs

end KeptByWrites

/-- What every store had, and every mutator keeps, every store has after a call. -/
theorem StoreCall.run_rule {call : StoreCall} (hstores : ∀ s ∈ stores, P s)
    (hmutate : ∀ i mutator s, call = .mutate i mutator → stores[i]? = some s → P s → P (mutator.run s)) :
    ∀ s ∈ call.run stores, P s := by
  cases call with
  | mutate i mutator =>
    intro s hs
    obtain ⟨j, hj⟩ := List.getElem?_of_mem hs
    simp only [run, List.getElem?_modify] at hj
    cases hold : stores[j]? with
    | none => simp [hold] at hj
    | some old =>
      have hkept := hstores old (List.mem_of_getElem? hold)
      rw [hold] at hj
      replace hj : (if i = j then mutator.run old else old) = s := Option.some.inj hj
      by_cases hij : i = j
      · rw [if_pos hij] at hj
        rw [← hj]
        exact hmutate i mutator old rfl (hij ▸ hold) hkept
      · rw [if_neg hij] at hj
        rw [← hj]
        exact hkept
  | clone i =>
    intro s hs
    rcases List.mem_append.mp hs with hs | hs
    · exact hstores s hs
    · exact hstores s (List.mem_of_getElem? (Option.mem_toList.mp hs))
  | replaceWith i other =>
    intro s hs
    simp only [run] at hs
    cases hother : stores[other]? with
    | none =>
      rw [hother] at hs
      exact hstores s hs
    | some replacement =>
      rw [hother] at hs
      rcases List.mem_or_eq_of_mem_set hs with hs | rfl
      · exact hstores s hs
      · exact hstores _ (List.mem_of_getElem? hother)

end Rules

end ChainLab.State
