import ChainLab.Core.SessionKey

/-! Social recovery of `account.v1` accounts: guardians vote for a new owner, wait, and execute. -/

namespace ChainLab.Core

open ChainLab.Lib ChainLab.Types ChainLab.Crypto ChainLab.State ChainLab.Contracts

def maxRecoveryGuardians : Nat := 16
def maxRecoveryGuardianListLen : Nat := maxRecoveryGuardians * 43 - 1
def maxRecoveryVoteListLen : Nat := maxRecoveryGuardians * 85 + maxRecoveryGuardians - 1
def recoveryProposalWindow : UInt64 := 256
def recoveryGuardiansKey : String := "recovery:guardians"
def recoveryThresholdKey : String := "recovery:threshold"
def recoveryDelayKey : String := "recovery:delay"
def recoveryPendingOwnerKey : String := "recovery:pending_owner"
def recoveryExecuteAfterKey : String := "recovery:execute_after"
def recoveryExpiresAtKey : String := "recovery:expires_at"
def recoveryApprovalsKey : String := "recovery:approvals"
def recoveryVotesKey : String := "recovery:votes"
def recoveryStoragePrefix : String := "recovery:"

/-- `consensusStateFault`. -/
def consensusStateFault (message : String) : GoError := wrapError .consensusExecutionFault message

/-- A parse failure of recovery state, reported as a consensus fault. -/
def asConsensusFault (err : GoError) : GoError := consensusStateFault err.text

/-- `normalizeRecoveryAddress`. -/
def normalizeRecoveryAddress (raw field : String) : Result String := do
  let address ← (Crypto.normalizeAddress raw).mapError fun err =>
    if err.sentinel = some .zeroAddress then newError (field ++ " must not be the zero address")
    else newError (field ++ " must be a 20-byte hex address")
  refuseIf (address ≠ raw) (newError (field ++ " is not canonically encoded"))
  return address

/-- `containsAddress`. -/
def containsAddress (addresses : List String) (target : String) : Bool :=
  addresses.contains (toLower (trimSpace target))

/-- `validateAccountRecoveryPayload`. -/
def validateAccountRecoveryPayload (action : String) (payload : Fields) : Result Unit :=
  let allowed := "action" :: (if action = "configure" then ["guardians", "threshold", "delay"]
    else if action = "approve" ∨ action = "execute" then ["new_owner"] else [])
  refuseIf (∃ key ∈ payload.keys, key ∉ allowed)
    (newError ("account recovery " ++ action ++ " payload contains unsupported fields"))

/-- The loop of `parseRecoveryGuardians`: canonical addresses without repetition. -/
def collectGuardians (parts : List String) : Result (List String) :=
  parts.foldlM (fun guardians part => do
    let guardian ← normalizeRecoveryAddress part "recovery guardian"
    refuseIf (guardian ∈ guardians) (newError "recovery guardians must be unique")
    return guardians ++ [guardian]) []

/-- `parseRecoveryGuardians`. -/
def parseRecoveryGuardians (raw : String) : Result (List String) := do
  let raw := trimSpace raw
  refuseIf (raw = "") (newError "recovery guardians are required")
  refuseIf (len raw > maxRecoveryGuardianListLen) (newError "recovery guardian count exceeds 16")
  let parts := split raw ','
  refuseIf (parts.length > maxRecoveryGuardians) (newError "recovery guardian count exceeds 16")
  collectGuardians parts

/-- `storedRecoveryGuardians`. -/
def storedRecoveryGuardians (store : Store) (account : String) : Result (List String) := do
  let raw := trimSpace (store.getStorage account recoveryGuardiansKey)
  refuseIf (raw = "") (newError "account recovery guardian action requires configured guardian")
  (parseRecoveryGuardians raw).mapError asConsensusFault

/-- `parseRecoveryThreshold`. -/
def parseRecoveryThreshold (raw : String) (guardianCount : Nat) : Result UInt64 := do
  let threshold ← require (parseUint raw) (newError "recovery threshold must be positive")
  refuseIf (threshold = 0 ∨ formatUint threshold ≠ raw) (newError "recovery threshold must be positive")
  refuseIf (threshold > UInt64.ofNat guardianCount) (newError "recovery threshold exceeds guardian count")
  return threshold

/-- `storedRecoveryThreshold`. -/
def storedRecoveryThreshold (store : Store) (account : String) (guardianCount : Nat) : Result UInt64 :=
  (parseRecoveryThreshold (store.getStorage account recoveryThresholdKey) guardianCount).mapError asConsensusFault

/-- `parseRecoveryDelay`. -/
def parseRecoveryDelay (raw : String) : Result UInt64 := do
  let delay ← require (parseUint raw) (newError "recovery delay must be an unsigned integer")
  refuseIf (formatUint delay ≠ raw) (newError "recovery delay must be an unsigned integer")
  return delay

/-- `storedRecoveryDelay`. -/
def storedRecoveryDelay (store : Store) (account : String) : Result UInt64 := do
  let raw := trimSpace (store.getStorage account recoveryDelayKey)
  refuseIf (raw = "") (consensusStateFault "recovery delay is not configured")
  (parseRecoveryDelay raw).mapError asConsensusFault

/-- `requiredRecoveryNewOwner`. -/
def requiredRecoveryNewOwner (raw : String) : Result String := do
  refuseIf (trimSpace raw = "") (newError "recovery new owner is required")
  normalizeRecoveryAddress raw "recovery new owner"

/-- `validateRecoveryNewOwner`. -/
def validateRecoveryNewOwner (store : Store) (account newOwner : String) : Result Unit := do
  refuseIf (equalFold (trimSpace account) newOwner)
    (newError "recovery new owner must differ from recovered account")
  let currentOwner := toLower (trimSpace (store.getStorage account "owner"))
  refuseIf (currentOwner ≠ "" ∧ currentOwner = newOwner)
    (newError "recovery new owner must differ from current owner")
  refuseIf (trimSpace (store.getAccount newOwner).codeID ≠ "") (newError "recovery new owner must be an EOA")

/-- `validateRecoveryGuardians`. -/
def validateRecoveryGuardians (store : Store) (account : String) (guardians : List String) : Result Unit :=
  let account := toLower (trimSpace account)
  let owner := toLower (trimSpace (store.getStorage account "owner"))
  guardians.forM fun guardian => do
    refuseIf (guardian = account) (newError "recovery guardian must differ from recovered account")
    refuseIf (owner ≠ "" ∧ guardian = owner) (newError "recovery guardian must differ from current owner")
    refuseIf (trimSpace (store.getAccount guardian).codeID ≠ "") (newError "recovery guardian must be an EOA")

/-- `storedRecoveryApprovals`. -/
def storedRecoveryApprovals (store : Store) (account : String) (guardians : List String) :
    Result (List String) :=
  let raw := trimSpace (store.getStorage account recoveryApprovalsKey)
  if raw = "" then .ok []
  else Except.mapError asConsensusFault do
    refuseIf (len raw > maxRecoveryGuardianListLen)
      (newError "recovery approvals exceed configured guardian limit")
    let parts := split raw ','
    refuseIf (parts.length > guardians.length) (newError "recovery approvals exceed configured guardian count")
    parts.foldlM (fun approvals part => do
      let approval ← normalizeRecoveryAddress part "recovery approval"
      refuseIf (!containsAddress guardians approval)
        (newError "recovery approval is not from a configured guardian")
      refuseIf (approval ∈ approvals) (newError "recovery approvals must be unique")
      return approvals ++ [approval]) []

structure RecoveryVote where
  guardian : String
  newOwner : String
  deriving DecidableEq

/-- One round of the loop of `storedRecoveryVotes`. -/
def scanVote (guardians : List String) (votes : List RecoveryVote) (part : String) :
    Result (List RecoveryVote) := do
  let fields ← require (cut part '=') (newError "recovery vote is invalid")
  let guardian ← normalizeRecoveryAddress fields.1 "recovery vote guardian"
  refuseIf (!containsAddress guardians guardian) (newError "recovery vote is not from a configured guardian")
  refuseIf (guardian ∈ votes.map RecoveryVote.guardian) (newError "recovery guardian votes must be unique")
  let newOwner ← normalizeRecoveryAddress fields.2 "recovery vote owner"
  return votes ++ [⟨guardian, newOwner⟩]

/-- `storedRecoveryVotes`. -/
def storedRecoveryVotes (store : Store) (account : String) (guardians : List String) :
    Result (List RecoveryVote) :=
  let raw := trimSpace (store.getStorage account recoveryVotesKey)
  if raw = "" then .ok []
  else Except.mapError asConsensusFault do
    refuseIf (len raw > maxRecoveryVoteListLen) (newError "recovery votes exceed configured guardian limit")
    let parts := split raw ','
    refuseIf (parts.length > guardians.length) (newError "recovery votes exceed configured guardian count")
    parts.foldlM (scanVote guardians) []

/-- `encodeRecoveryVotes`. -/
def encodeRecoveryVotes (votes : List RecoveryVote) : String :=
  join (votes.map fun vote => vote.guardian ++ "=" ++ vote.newOwner) ','

/-- `recoveryVotesForOwner`. -/
def recoveryVotesForOwner (votes : List RecoveryVote) (newOwner : String) : List String :=
  (votes.filter fun vote => vote.newOwner = newOwner).map RecoveryVote.guardian

/-- `parseStoredRecoveryHeight`. -/
def parseStoredRecoveryHeight (raw : String) : Result UInt64 :=
  require (parseUint (trimSpace raw)) (consensusStateFault "recovery execute height is invalid")

/-- `parseStoredRecoveryExpiry`. -/
def parseStoredRecoveryExpiry (raw : String) : Result UInt64 :=
  require (parseUint (trimSpace raw)) (consensusStateFault "recovery proposal expiry is invalid")

/-- `clearPendingRecovery`. -/
def clearPendingRecovery (store : Store) (account : String) : Store :=
  [recoveryPendingOwnerKey, recoveryExecuteAfterKey, recoveryExpiresAtKey, recoveryApprovalsKey,
    recoveryVotesKey].foldl (fun store key => store.deleteStorage account key) store

/-- The `configure` action of `executeAccountRecovery`. -/
def configureRecovery (store : Store) (tx : Transaction) (attributes : Fields) : Result (Store × Event) := do
  let guardians ← parseRecoveryGuardians (GoMap.get tx.payload "guardians")
  validateRecoveryGuardians store tx.fromAddress guardians
  let threshold ← parseRecoveryThreshold (GoMap.get tx.payload "threshold") guardians.length
  refuseIf (trimSpace (GoMap.get tx.payload "delay") = "") (newError "recovery delay is required")
  let delay ← parseRecoveryDelay (GoMap.get tx.payload "delay")
  let guardiansRaw := join guardians ','
  let store ← store.setStorage tx.fromAddress recoveryGuardiansKey guardiansRaw
  let store ← store.setStorage tx.fromAddress recoveryThresholdKey (formatUint threshold)
  let store ← store.setStorage tx.fromAddress recoveryDelayKey (formatUint delay)
  let attributes := ((attributes.insert "guardians" guardiansRaw).insert "threshold"
    (formatUint threshold)).insert "delay" (formatUint delay)
  return (clearPendingRecovery store tx.fromAddress, { type := "account.recovery_configured", attributes })

/-- The round an approval joins: the pending owner and the expiry, after an expired round is cleared. -/
def currentRecoveryRound (store : Store) (account : String) (blockHeight : UInt64) :
    Result (Store × String × String) := do
  let pendingRaw := trimSpace (store.getStorage account recoveryPendingOwnerKey)
  let expiresAtRaw := trimSpace (store.getStorage account recoveryExpiresAtKey)
  refuseIf (pendingRaw ≠ "" ∧ expiresAtRaw = "") (consensusStateFault "recovery proposal expiry is not set")
  if expiresAtRaw = "" then return (store, pendingRaw, expiresAtRaw)
  else
    let expiresAt ← parseStoredRecoveryExpiry expiresAtRaw
    if blockHeight > expiresAt then return (clearPendingRecovery store account, "", "")
    else return (store, pendingRaw, expiresAtRaw)

/-- The vote list with the signer's vote recorded, and whether it replaced an earlier one. Stored
votes are unique per guardian, so at most one is replaced. -/
def recordVote (votes : List RecoveryVote) (signer newOwner : String) (threshold : UInt64) :
    Result (List RecoveryVote × Bool) :=
  match votes.find? fun vote => vote.guardian = signer with
  | some vote => do
    refuseIf (vote.newOwner = newOwner) (newError "recovery approval already recorded")
    refuseIf (UInt64.ofNat ((recoveryVotesForOwner votes newOwner).length + 1) < threshold)
      (newError "recovery vote change must reach approval threshold")
    return (votes.map fun v => if v.guardian = signer then { v with newOwner } else v, true)
  | none => .ok (votes ++ [⟨signer, newOwner⟩], false)

/-- The round reached its threshold: the proposal becomes pending and the votes are dropped. -/
def openRecovery (store : Store) (account newOwner : String) (approvals : List String)
    (blockHeight delay : UInt64) : Result (Store × String × String) := do
  let executeAfter ← (checkedAdd blockHeight delay).mapError fun _ => newError "recovery execute height overflow"
  let expiresAt ← (checkedAdd executeAfter recoveryProposalWindow).mapError fun _ =>
    newError "recovery proposal expiry overflow"
  let store ← store.setStorage account recoveryPendingOwnerKey newOwner
  let store ← store.setStorage account recoveryApprovalsKey (join approvals ',')
  let store ← store.setStorage account recoveryExecuteAfterKey (formatUint executeAfter)
  let store ← store.setStorage account recoveryExpiresAtKey (formatUint expiresAt)
  return (store.deleteStorage account recoveryVotesKey, formatUint executeAfter, formatUint expiresAt)

/-- The round stays open: its expiry is set by the first vote. -/
def continueRecovery (store : Store) (account : String) (blockHeight : UInt64) (expiresAtRaw : String) :
    Result (Store × String × String) := do
  refuseIf (trimSpace (store.getStorage account recoveryExecuteAfterKey) ≠ "")
    (consensusStateFault "recovery execute height is set before approval threshold")
  if expiresAtRaw = "" then
    let expiresAt ← (checkedAdd blockHeight recoveryProposalWindow).mapError fun _ =>
      newError "recovery proposal expiry overflow"
    let store ← store.setStorage account recoveryExpiresAtKey (formatUint expiresAt)
    return (store, "", formatUint expiresAt)
  else return (store, "", expiresAtRaw)

/-- The `approve` action of `executeAccountRecovery`. -/
def approveRecovery (store : Store) (tx : Transaction) (signer : String) (blockHeight : UInt64)
    (attributes : Fields) : Result (Store × Event) := do
  let account := tx.fromAddress
  let newOwner ← requiredRecoveryNewOwner (GoMap.get tx.payload "new_owner")
  validateRecoveryNewOwner store account newOwner
  let guardians ← storedRecoveryGuardians store account
  let threshold ← storedRecoveryThreshold store account guardians.length
  let delay ← storedRecoveryDelay store account
  let round ← currentRecoveryRound store account blockHeight
  let store := round.1
  let pendingRaw := round.2.1
  let expiresAtRaw := round.2.2
  if pendingRaw ≠ "" then
    let pendingOwner ← (normalizeRecoveryAddress pendingRaw "recovery pending owner").mapError asConsensusFault
    refuseIf (pendingOwner ≠ newOwner) (newError "recovery for another owner is already pending")
    .error (newError "recovery approval threshold already met")
  else
    let votes ← storedRecoveryVotes store account guardians
    let recorded ← recordVote votes signer newOwner threshold
    let votes := recorded.1
    let store ← store.setStorage account recoveryVotesKey (encodeRecoveryVotes votes)
    let approvals := recoveryVotesForOwner votes newOwner
    let outcome ← (if UInt64.ofNat approvals.length ≥ threshold
      then openRecovery store account newOwner approvals blockHeight delay
      else continueRecovery store account blockHeight expiresAtRaw)
    let attributes := (((attributes.insert "guardian" signer).insert "new_owner" newOwner).insert "approvals"
      (itoa approvals.length)).insert "threshold" (formatUint threshold)
    let attributes := if recorded.2 then attributes.insert "updated" "true" else attributes
    let attributes := if outcome.2.1 ≠ "" then
      (attributes.insert "execute_after" outcome.2.1).insert "pending" "true" else attributes
    return (outcome.1, {
      type := "account.recovery_approved", attributes := attributes.insert "expires_at" outcome.2.2 })

/-- Why an `execute` without a pending owner fails. -/
def missingPendingOwner (store : Store) (account : String) (guardians : List String)
    (blockHeight : UInt64) : GoError :=
  match storedRecoveryVotes store account guardians with
  | .error err => err
  | .ok [] => newError "recovery has no pending owner"
  | .ok (_ :: _) =>
    let expiresAtRaw := trimSpace (store.getStorage account recoveryExpiresAtKey)
    if expiresAtRaw = "" then consensusStateFault "recovery voting round expiry is not set"
    else match parseStoredRecoveryExpiry expiresAtRaw with
      | .error err => err
      | .ok expiresAt =>
        if blockHeight > expiresAt then newError "recovery voting round has expired"
        else newError "recovery approval threshold not met"

/-- The `execute` action of `executeAccountRecovery`. -/
def executeRecovery (store : Store) (tx : Transaction) (signer : String) (blockHeight : UInt64)
    (attributes : Fields) : Result (Store × Event) := do
  let account := tx.fromAddress
  let newOwner ← requiredRecoveryNewOwner (GoMap.get tx.payload "new_owner")
  validateRecoveryNewOwner store account newOwner
  let guardians ← storedRecoveryGuardians store account
  let threshold ← storedRecoveryThreshold store account guardians.length
  let pendingRaw := trimSpace (store.getStorage account recoveryPendingOwnerKey)
  refuseIf (pendingRaw = "") (missingPendingOwner store account guardians blockHeight)
  let pendingOwner ← (normalizeRecoveryAddress pendingRaw "recovery pending owner").mapError asConsensusFault
  refuseIf (newOwner ≠ pendingOwner) (newError "recovery new owner does not match pending owner")
  let approvals ← storedRecoveryApprovals store account guardians
  refuseIf (UInt64.ofNat approvals.length < threshold) (consensusStateFault "recovery approval threshold not met")
  let executeAfterRaw := trimSpace (store.getStorage account recoveryExecuteAfterKey)
  refuseIf (executeAfterRaw = "") (consensusStateFault "recovery execute height is not set")
  let executeAfter ← parseStoredRecoveryHeight executeAfterRaw
  let expiresAtRaw := trimSpace (store.getStorage account recoveryExpiresAtKey)
  refuseIf (expiresAtRaw = "") (consensusStateFault "recovery proposal expiry is not set")
  let expiresAt ← parseStoredRecoveryExpiry expiresAtRaw
  refuseIf (blockHeight > expiresAt) (newError "recovery proposal has expired")
  refuseIf (blockHeight < executeAfter) (newError "recovery delay has not elapsed")
  let epoch ← sessionEpoch store account
  refuseIf (epoch = maxUint64) (newError "session epoch overflow")
  let oldOwner := toLower (trimSpace (store.getStorage account "owner"))
  let store ← store.setStorage account "owner" pendingOwner
  let store ← store.setStorage account sessionEpochKey (formatUint (epoch + 1))
  let attributes := ((((attributes.insert "guardian" signer).insert "old_owner" oldOwner).insert "new_owner"
    pendingOwner).insert "approvals" (itoa approvals.length)).insert "session_epoch" (formatUint (epoch + 1))
  return (clearPendingRecovery store account, { type := "account.recovery_executed", attributes })

/-- The `cancel` action of `executeAccountRecovery`. -/
def cancelRecovery (store : Store) (tx : Transaction) (attributes : Fields) : Store × Event :=
  let pendingOwner := toLower (trimSpace (store.getStorage tx.fromAddress recoveryPendingOwnerKey))
  (clearPendingRecovery store tx.fromAddress, {
    type := "account.recovery_cancelled"
    attributes := if pendingOwner ≠ "" then attributes.insert "new_owner" pendingOwner else attributes })

/-- `executeAccountRecovery`. -/
def executeAccountRecovery (store : Store) (tx : Transaction) (blockHeight : UInt64) :
    Result (Store × Event) := do
  let action ← accountRecoveryAction tx.payload
  let signer := toLower (trimSpace tx.signer)
  let attributes : Fields := GoMap.ofList
    [("account", toLower (trimSpace tx.fromAddress)), ("action", action), ("signer", signer)]
  if action = "configure" then configureRecovery store tx attributes
  else if action = "approve" then approveRecovery store tx signer blockHeight attributes
  else if action = "execute" then executeRecovery store tx signer blockHeight attributes
  else if action = "cancel" then return cancelRecovery store tx attributes
  else return (store.deleteStoragePrefix tx.fromAddress recoveryStoragePrefix,
    { type := "account.recovery_cleared", attributes })

end ChainLab.Core
