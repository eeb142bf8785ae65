import ChainLab.Abci.Protocol

/-! Misbehaviour reported with a block: what is accepted, and what it does to stakes and to the lifecycle. -/

namespace ChainLab.Abci

open ChainLab.Lib ChainLab.Types ChainLab.Crypto ChainLab.State

/-! ### Time -/

/-- `time.Time`: seconds since the start of year 1, and nanoseconds within the second. -/
structure Time where
  sec : Int64
  nsec : Fin 1000000000
  deriving DecidableEq, Inhabited

namespace Time

/-- Seconds from the start of year 1 to the Unix epoch. -/
def unixToInternal : Int64 := 62135596800

/-- `IsZero`. -/
def isZero (t : Time) : Bool := t.sec = 0 && t.nsec = 0

/-- `Unix`. -/
def unix (t : Time) : Int64 := t.sec - unixToInternal

/-- `After`. -/
def after (t u : Time) : Bool := t.sec > u.sec || (t.sec = u.sec && t.nsec > u.nsec)

/-- `time.Unix`: nanoseconds outside the second are carried over. -/
def ofUnix (sec nsec : Int64) : Time where
  sec := sec + Int64.ofInt (nsec.toInt / 1000000000) + unixToInternal
  nsec := Fin.ofNat 1000000000 (nsec.toInt % 1000000000).toNat

/-- `Sub`: the difference in nanoseconds, at the bounds of a duration where it does not fit. -/
def sub (t u : Time) : Int64 :=
  let exact := (t.sec.toInt - u.sec.toInt) * 1000000000 + ((t.nsec.val : Int) - u.nsec.val)
  if exact > 2 ^ 63 - 1 then maxInt64 else if exact < -2 ^ 63 then -maxInt64 - 1 else Int64.ofInt exact

end Time

/-! ### Records -/

/-- The values of `MisbehaviorType` that are accepted. -/
def duplicateVote : Int32 := 1
def lightClientAttack : Int32 := 2

structure Misbehavior where
  type : Int32
  address : List UInt8
  power : Int64
  height : Int64
  time : Time
  totalVotingPower : Int64

structure EvidenceRecord where
  type : Int32
  validator : String
  power : Int64
  height : Int64
  timeUnix : Int64
  timeNanosecond : Nat
  totalVotingPower : Int64
  consensusAddress : String := ""
  deriving DecidableEq, Inhabited

def EvidenceRecord.json (record : EvidenceRecord) : JsonText :=
  jsonObject [jsonField "type" (jsonInt record.type.toInt64), jsonField "validator" (jsonString record.validator),
    jsonField "power" (jsonInt record.power), jsonField "height" (jsonInt record.height),
    jsonField "time_unix" (jsonInt record.timeUnix), jsonField "time_nanosecond" (Nat.toDigits 10 record.timeNanosecond),
    jsonField "total_voting_power" (jsonInt record.totalVotingPower),
    jsonOmitEmpty (record.consensusAddress = "") "consensus_address" (jsonString record.consensusAddress)]

/-- `evidenceRoot`. -/
def evidenceRoot [Primitives] (records : List EvidenceRecord) : String :=
  keccakHex (utf8Bytes (jsonArray (records.map EvidenceRecord.json)))

/-- The order of `sortEvidenceRecords`. -/
def EvidenceRecord.le (left right : EvidenceRecord) : Prop :=
  left.height < right.height ∨ (left.height = right.height ∧
    (left.validator < right.validator ∨ (left.validator = right.validator ∧ left.type ≤ right.type)))

instance : DecidableRel EvidenceRecord.le := fun _ _ => inferInstanceAs (Decidable (_ ∨ _))

/-- `sortEvidenceRecords`. -/
def sortEvidenceRecords (records : List EvidenceRecord) : List EvidenceRecord := records.insertionSort EvidenceRecord.le

/-- An item of misbehaviour as it is named in messages. -/
def misbehaviorError (index : Nat) (text : String) : GoError := newError ("misbehavior " ++ itoa index ++ text)

/-- The checks on type and address that both versions start with. -/
def validateMisbehaviorSource (index : Nat) (item : Misbehavior) : Result Unit := do
  refuseIf (item.type ≠ duplicateVote ∧ item.type ≠ lightClientAttack)
    (misbehaviorError index " has an unsupported type")
  refuseIf (item.address.length ≠ 20) (misbehaviorError index " has an invalid validator address")

/-- One round of the loop of `validateEvidence`, on the records so far; the offences seen are theirs. -/
def scanEvidence (height : Int64) (validators : GoMap String String) (records : List EvidenceRecord)
    (entry : Misbehavior × Nat) : Result (List EvidenceRecord) := do
  let item := entry.1
  let about := misbehaviorError entry.2
  validateMisbehaviorSource entry.2 item
  let validator ← require (validators.lookup (String.ofList (hexEncode item.address)))
    (about " validator is not in the fixed validator set")
  refuseIf (item.power ≠ 1 ∨ item.totalVotingPower ≠ Int64.ofNat (GoMap.len validators))
    (about " voting power does not match the fixed equal-power set")
  refuseIf (item.height ≤ 0 ∨ item.height ≥ height) (about " height is outside committed history")
  refuseIf item.time.isZero (about " time is required")
  refuseIf (∃ record ∈ records, record.type = item.type ∧ record.validator = validator ∧ record.height = item.height)
    (about " duplicates an earlier offence")
  return records ++ [{
    type := item.type, validator, power := item.power, height := item.height, timeUnix := item.time.unix
    timeNanosecond := item.time.nsec, totalVotingPower := item.totalVotingPower }]

/-- `validateEvidence`. -/
def validateEvidence (input : List Misbehavior) (height : Int64) (validators : GoMap String String) :
    Result (List EvidenceRecord) := do
  refuseIf (input.length > GoMap.len validators) (newError "misbehavior count exceeds the fixed validator set")
  let records ← input.zipIdx.foldlM (scanEvidence height validators) []
  return sortEvidenceRecords records

/-! ### Validator sets -/

/-- `validatorIdentityActive`. -/
def validatorIdentityActive (identity : ValidatorIdentity) (height : Int64) : Bool :=
  height ≥ identity.activeHeight && (identity.inactiveHeight = 0 || height < identity.inactiveHeight)

/-- The identities of a lifecycle; what is computed from them does not depend on their order. -/
def identitiesOf (lifecycle : ValidatorLifecycle) : List ValidatorIdentity :=
  (orderedIdentities lifecycle).map Prod.snd

/-- `validatorVotingPowerAtHeight`. -/
def validatorVotingPowerAtHeight (lifecycle : ValidatorLifecycle) (height : Int64) : Result Int64 := do
  let active := (identitiesOf lifecycle).filter fun identity => validatorIdentityActive identity height
  let total ← active.foldlM (fun (total : Int64) identity => do
    refuseIf (identity.power ≤ 0 ∨ total > maxInt64 - identity.power)
      (newError "historical validator voting power is invalid")
    return total + identity.power) 0
  refuseIf (total ≤ 0) (newError "historical validator set is empty")
  return total

/-- `validateNonEmptyScheduledValidatorSets`. -/
def validateNonEmptyScheduledValidatorSets (lifecycle : ValidatorLifecycle) : Result Unit :=
  (identitiesOf lifecycle).forM fun identity =>
    checkWhen (identity.inactiveHeight > 0) (do
      let _ ← (validatorVotingPowerAtHeight lifecycle identity.inactiveHeight).mapError fun _ =>
        newError ("validator update at height " ++ String.ofList (jsonInt identity.inactiveHeight) ++
          " would empty the validator set"))

/-- `validatorUnbondingHeight`. -/
def validatorUnbondingHeight (removalHeight epochLength unbondingEpochs : Int64) : Result Int64 := do
  refuseIf (removalHeight ≤ 0 ∨ epochLength < 2 ∨ unbondingEpochs < 2 ∨
      epochLength > (maxInt64 - removalHeight) / unbondingEpochs)
    (newError "validator unbonding height overflows")
  return removalHeight + unbondingEpochs * epochLength

/-- The check of one identity in `validateValidatorEpochSchedule`. -/
def validateIdentitySchedule (genesisValidators : List String) (epochLength unbondingEpochs : Int64)
    (identity : ValidatorIdentity) : Result Unit := do
  let named := "validator " ++ quote identity.account
  refuseIf (identity.account ∈ genesisValidators ∧ identity.activeHeight ≠ 1)
    (newError ("genesis " ++ named ++ " must activate at height 1"))
  refuseIf (identity.account ∉ genesisValidators ∧
      (identity.activeHeight < 3 ∨ (identity.activeHeight - 1) % epochLength ≠ 0))
    (newError (named ++ " admission is not on an epoch boundary"))
  refuseIf (identity.inactiveHeight ≠ 0 ∧
      (identity.inactiveHeight < 3 ∨ (identity.inactiveHeight - 1) % epochLength ≠ 0))
    (newError (named ++ " removal is not on an epoch boundary"))
  checkWhen (identity.unbondingHeight ≠ 0) (do
    refuseIf (unbondingEpochs = 0) (newError (named ++ " has unactivated unbonding state"))
    let invalid := newError (named ++ " unbonding height is invalid")
    let expected ← (validatorUnbondingHeight identity.inactiveHeight epochLength unbondingEpochs).mapError
      fun _ => invalid
    refuseIf (identity.unbondingHeight ≠ expected) invalid)

/-- `validateValidatorEpochSchedule`. -/
def validateValidatorEpochSchedule (lifecycle : ValidatorLifecycle) (genesisValidators : List String)
    (epochLength unbondingEpochs : Int64) : Result Unit := do
  refuseIf (epochLength < 2) (newError "validator epoch length must be at least 2")
  (identitiesOf lifecycle).forM (validateIdentitySchedule genesisValidators epochLength unbondingEpochs)

/-- A change of the validator set: a public key and its new power. -/
structure ValidatorUpdate where
  publicKey : List UInt8
  power : Int64
  deriving DecidableEq

/-- The update of one identity in `validatorUpdatesAtHeight`. -/
def validatorUpdate (height : Int64) (identity : ValidatorIdentity) : Result ValidatorUpdate := do
  refuseIf (identity.activeHeight = identity.inactiveHeight)
    (newError "validator lifecycle activates and removes an identity at the same height")
  let invalid := newError "validator lifecycle contains an invalid public key"
  let publicKey ← require (hexDecode (runes identity.publicKey)) invalid
  refuseIf (publicKey.length ≠ 33) invalid
  return { publicKey, power := if identity.inactiveHeight = height + 2 then 0 else identity.power }

/-- `validatorUpdatesAtHeight`. -/
def validatorUpdatesAtHeight (lifecycle : ValidatorLifecycle) (height : Int64) : Result (List ValidatorUpdate) :=
  (((identitiesOf lifecycle).filter fun identity =>
      identity.activeHeight = height + 2 || identity.inactiveHeight = height + 2).insertionSort
    fun left right => left.consensusAddress ≤ right.consensusAddress).mapM (validatorUpdate height)

/-- `validatorEpoch`. -/
def validatorEpoch (height epochLength : Int64) : UInt64 :=
  if height ≤ 0 ∨ epochLength ≤ 0 then 0 else ((height - 1) / epochLength).toUInt64

/-! ### Evidence against the lifecycle -/

/-- One round of the loop of `validateEvidenceV2`, on the records so far; the offences seen are theirs. -/
def scanEvidenceV2 (height : Int64) (blockTime : Time) (lifecycle : ValidatorLifecycle) (policy : ValidatorPolicy)
    (records : List EvidenceRecord) (entry : Misbehavior × Nat) : Result (List EvidenceRecord) := do
  let item := entry.1
  let about := misbehaviorError entry.2
  validateMisbehaviorSource entry.2 item
  let consensusAddress := String.ofList (hexEncode item.address)
  let identity ← require (lifecycle.validators.lookup consensusAddress) (about " validator identity is unknown")
  refuseIf (item.height ≤ 0 ∨ item.height ≥ height) (about " height is outside committed history")
  refuseIf (!validatorIdentityActive identity item.height) (about " validator was not active at the offence height")
  let totalVotingPower ← validatorVotingPowerAtHeight lifecycle item.height
  refuseIf (item.power ≠ identity.power ∨ item.totalVotingPower ≠ totalVotingPower)
    (about " voting power does not match the historical validator set")
  refuseIf (item.time.isZero ∨ item.time.after blockTime) (about " time is invalid")
  refuseIf (height - item.height > policy.evidenceMaxAgeNumBlocks ∧
      blockTime.sub item.time > policy.evidenceMaxAgeDurationNanos)
    (about " is older than the protocol retention window")
  refuseIf (∃ record ∈ records, validatorOffenceKey record.validator record.height =
      validatorOffenceKey identity.account item.height)
    (about " duplicates an earlier validator-height offence")
  return records ++ [{
    type := item.type, validator := identity.account, consensusAddress, power := item.power, height := item.height
    timeUnix := item.time.unix, timeNanosecond := item.time.nsec, totalVotingPower := item.totalVotingPower }]

/-- `validateEvidenceV2`. -/
def validateEvidenceV2 (input : List Misbehavior) (height : Int64) (blockTime : Time) (lifecycle : ValidatorLifecycle)
    (policy : ValidatorPolicy) : Result (List EvidenceRecord) := do
  refuseIf blockTime.isZero (newError "protocol version 2 requires a block time")
  refuseIf (input.length > GoMap.len lifecycle.validators)
    (newError "misbehavior count exceeds the validator identity set")
  let records ← input.zipIdx.foldlM (scanEvidenceV2 height blockTime lifecycle policy) []
  return sortEvidenceRecords records

/-- `evidenceSlashBasisPoints`. -/
def evidenceSlashBasisPoints (evidenceType : Int32) (policy : ValidatorPolicy) : Result UInt32 :=
  if evidenceType = duplicateVote then .ok policy.duplicateVoteSlashBasisPoints
  else if evidenceType = lightClientAttack then .ok policy.lightClientAttackSlashBasisPoints
  else .error (newError "unsupported evidence type")

/-- `slashAmountCeiling`. -/
def slashAmountCeiling (stake : UInt64) (basisPoints : UInt32) : UInt64 :=
  if stake = 0 ∨ basisPoints = 0 then 0
  else
    let whole := (stake / 10000) * basisPoints.toUInt64
    let remainderProduct := (stake % 10000) * basisPoints.toUInt64
    let partialAmount := remainderProduct / 10000
    whole + (if remainderProduct % 10000 ≠ 0 then partialAmount + 1 else partialAmount)

/-- `nextEpochRemovalHeight`. -/
def nextEpochRemovalHeight (observedHeight epochLength : Int64) : Result Int64 := do
  refuseIf (observedHeight ≤ 0 ∨ observedHeight > maxInt64 - 2 ∨ epochLength < 2)
    (newError "cannot schedule validator removal outside the height domain")
  let offset := observedHeight + 2 - 1
  let epoch := if offset % epochLength ≠ 0 then offset / epochLength + 1 else offset / epochLength
  refuseIf (epoch > (maxInt64 - 1) / epochLength) (newError "validator removal height overflows")
  return epoch * epochLength + 1

/-- An identity removed by evidence, with the height of its removal. An earlier removal stands. -/
def scheduleRemoval (policy : ValidatorPolicy) (removalHeight : Int64) (identity : ValidatorIdentity) :
    Result (ValidatorIdentity × Int64) :=
  if identity.inactiveHeight = 0 ∨ removalHeight < identity.inactiveHeight then do
    let removed := { identity with inactiveHeight := removalHeight }
    if policy.unbondingEpochs > 0 then
      let unbondingHeight ← validatorUnbondingHeight removalHeight policy.epochLength policy.unbondingEpochs
      return ({ removed with unbondingHeight }, removalHeight)
    else return (removed, removalHeight)
  else .ok (identity, identity.inactiveHeight)

/-- The stake and lifecycle that the loop of `applyEvidenceV2` works on. -/
structure EvidenceScan where
  store : Store
  lifecycle : ValidatorLifecycle

/-- The stake lost to an offence. -/
def slashStake (store : Store) (validator : String) (slashAmount : UInt64) : Result Store :=
  if slashAmount > 0 then store.subStake validator slashAmount else .ok store

/-- The offence kept for a record. -/
def recordedOffence (record : EvidenceRecord) (height : Int64) (slashBasisPoints : UInt32) (slashAmount : UInt64)
    (removalHeight : Int64) (recordEvidenceTime : Bool) : ValidatorOffence :=
  let offence : ValidatorOffence := {
    validator := record.validator, height := record.height, type := record.type, observedHeight := height
    slashBasisPoints, slashAmount, removalHeight }
  if recordEvidenceTime then { offence with
    evidenceTimePresent := true, evidenceTimeUnix := record.timeUnix
    evidenceTimeNanosecond := Int32.ofNat record.timeNanosecond }
  else offence

/-- One round of the loop of `applyEvidenceV2`: an offence that was recorded before changes nothing. -/
def scanRecord (height : Int64) (policy : ValidatorPolicy) (recordEvidenceTime : Bool) (scan : EvidenceScan)
    (record : EvidenceRecord) : Result EvidenceScan :=
  let key := validatorOffenceKey record.validator record.height
  if key ∈ scan.lifecycle.offences then .ok scan
  else do
    refuseIf (GoMap.len scan.lifecycle.offences ≥ maxValidatorOffences)
      (newError "validator lifecycle exceeds 1000000 offences")
    let slashBasisPoints ← evidenceSlashBasisPoints record.type policy
    let slashAmount := slashAmountCeiling (scan.store.stakeOf record.validator) slashBasisPoints
    let store ← slashStake scan.store record.validator slashAmount
    let nextRemoval ← nextEpochRemovalHeight height policy.epochLength
    let identity := GoMap.get scan.lifecycle.validators record.consensusAddress
    let scheduled ← scheduleRemoval policy nextRemoval identity
    let validators :=
      if identity.inactiveHeight = 0 ∨ nextRemoval < identity.inactiveHeight then
        scan.lifecycle.validators.insert record.consensusAddress scheduled.1
      else scan.lifecycle.validators
    let offence := recordedOffence record height slashBasisPoints slashAmount scheduled.2 recordEvidenceTime
    return { store, lifecycle := { validators, offences := scan.lifecycle.offences.insert key offence } }

section Lifecycle

variable [Primitives]

/-- `applyEvidenceV2`; what it reports for events is left out. -/
def applyEvidenceV2 (store : Store) (records : List EvidenceRecord) (height : Int64) (policy : ValidatorPolicy)
    (recordEvidenceTime : Bool) : Result (Store × List ValidatorUpdate) := do
  let lifecycle ← require store.validatorLifecycle (newError "protocol version 2 validator lifecycle is missing")
  let scan ← records.foldlM (scanRecord height policy recordEvidenceTime) { store, lifecycle }
  validateNonEmptyScheduledValidatorSets scan.lifecycle
  let store ← scan.store.setValidatorLifecycle scan.lifecycle
  let updates ← validatorUpdatesAtHeight scan.lifecycle height
  return (store, updates)

/-- The time an offence's evidence was made, as it was recorded. -/
def evidenceTime (offence : ValidatorOffence) : Time :=
  Time.ofUnix offence.evidenceTimeUnix offence.evidenceTimeNanosecond.toInt64

/-- An offence that is past the retention window in blocks and in time. -/
def offenceExpired (policy : ValidatorPolicy) (height : Int64) (blockTime : Time) (offence : ValidatorOffence) : Bool :=
  offence.evidenceTimePresent && height - offence.height > policy.evidenceMaxAgeNumBlocks &&
    blockTime.sub (evidenceTime offence) > policy.evidenceMaxAgeDurationNanos

/-- `compactValidatorOffencesV5`; the pruned offences it reports for events are left out. -/
def compactValidatorOffencesV5 (store : Store) (height : Int64) (blockTime : Time) (policy : ValidatorPolicy) :
    Result Store := do
  refuseIf (height ≤ 0 ∨ blockTime.isZero)
    (newError "protocol version 5 offence compaction requires height and block time")
  let lifecycle ← require store.validatorLifecycle (newError "protocol version 5 validator lifecycle is missing")
  lifecycle.offences.sortedKeys.forM fun key =>
    let offence := GoMap.get lifecycle.offences key
    refuseIf (offence.evidenceTimePresent ∧ (evidenceTime offence).after blockTime)
      (newError ("validator offence " ++ quote key ++ " evidence time is after the current block"))
  let expired := lifecycle.offences.sortedKeys.filter fun key =>
    offenceExpired policy height blockTime (GoMap.get lifecycle.offences key)
  if expired.isEmpty then return store
  else store.setValidatorLifecycle { lifecycle with
    offences := GoMap.filterKeys (fun key => key ∉ expired) lifecycle.offences }

end Lifecycle

end ChainLab.Abci
