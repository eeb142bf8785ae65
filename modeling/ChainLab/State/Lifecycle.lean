import ChainLab.State.Store

/-! Validator identities and offences kept in the store, and the checks every stored lifecycle passes. -/

namespace ChainLab.State

open ChainLab.Lib ChainLab.Types ChainLab.Crypto

def maxValidatorOffences : Nat := 1000000
def validatorStakePerPower : UInt64 := 1000

def maxInt64 : Int64 := 0x7FFFFFFFFFFFFFFF

/-- A height as the zero-padded 20-digit text of `%020d`; the sign counts as a digit. -/
def paddedHeight (height : Int64) : String :=
  let digits := Nat.toDigits 10 height.toInt.natAbs
  if height.toInt < 0 then String.ofList ('-' :: (List.replicate (19 - digits.length) '0' ++ digits))
  else String.ofList (List.replicate (20 - digits.length) '0' ++ digits)

/-- `ValidatorOffenceKey`. -/
def validatorOffenceKey (account : String) (height : Int64) : String := account ++ ":" ++ paddedHeight height

/-- `validatorActiveAtHeight`. -/
def validatorActiveAtHeight (identity : ValidatorIdentity) (height : Int64) : Bool :=
  identity.activeHeight ≤ height && (identity.inactiveHeight = 0 || height < identity.inactiveHeight)

/-- `ValidateValidatorIdentity`. -/
def validateValidatorIdentity [Primitives] (identity : ValidatorIdentity) : Result Unit := do
  refuseIf (¬IsCanonicalAddress identity.account)
    (newError ("validator lifecycle account " ++ quote identity.account ++ " is not canonical"))
  let malformedKey := newError "validator lifecycle public key is not canonical compressed secp256k1"
  let publicKey ← require (hexDecode (runes identity.publicKey)) malformedKey
  refuseIf (publicKey.length ≠ 33 ∨ hexEncode publicKey ≠ runes identity.publicKey) malformedKey
  refuseIf (addressFromCompressedPublicKey publicKey ≠ some identity.account)
    (newError "validator lifecycle public key does not match account")
  let malformedAddress := newError "validator lifecycle consensus address is not canonical"
  let consensusAddress ← require (hexDecode (runes identity.consensusAddress)) malformedAddress
  refuseIf (consensusAddress.length ≠ 20 ∨ hexEncode consensusAddress ≠ runes identity.consensusAddress)
    malformedAddress
  refuseIf (hexEncode (Primitives.ripemd160 (Primitives.sha256 publicKey)) ≠ runes identity.consensusAddress)
    (newError "validator lifecycle public key does not match consensus address")
  refuseIf (identity.power ≤ 0) (newError "validator lifecycle power must be positive")
  refuseIf (identity.activeHeight ≤ 0) (newError "validator lifecycle active height must be positive")
  refuseIf (identity.inactiveHeight ≠ 0 ∧ identity.inactiveHeight ≤ identity.activeHeight)
    (newError "validator lifecycle inactive height must exceed active height")
  refuseIf (identity.unbondingHeight ≠ 0 ∧
      (identity.inactiveHeight = 0 ∨ identity.unbondingHeight ≤ identity.inactiveHeight))
    (newError "validator lifecycle unbonding height must exceed inactive height")

/-- `ValidatorPowerFromStake`. -/
def validatorPowerFromStake (stake : UInt64) : Result Int64 := do
  let power := stake / validatorStakePerPower
  refuseIf (power = 0) (newError "validator requires at least 1000 stake")
  refuseIf (power > (maxInt64 / 8).toUInt64) (newError "stake-derived power exceeds the CometBFT limit")
  return power.toInt64

/-- `validateValidatorOffence`. -/
def validateValidatorOffence (key : String) (offence : ValidatorOffence)
    (identitiesByAccount : String → Option ValidatorIdentity) : Result Unit := do
  let invalid := fun text => newError ("validator offence " ++ quote key ++ text)
  refuseIf (¬IsCanonicalAddress offence.validator) (invalid " has a non-canonical validator")
  refuseIf (key ≠ validatorOffenceKey offence.validator offence.height)
    (newError ("validator offence key " ++ quote key ++ " is not canonical"))
  let identity ← require (identitiesByAccount offence.validator) (invalid " references an unknown validator")
  refuseIf (!validatorActiveAtHeight identity offence.height)
    (invalid " occurred outside the validator's active interval")
  refuseIf (offence.height ≤ 0 ∨ offence.observedHeight ≤ offence.height) (invalid " heights are invalid")
  refuseIf (offence.type ≠ 1 ∧ offence.type ≠ 2) (invalid " type is invalid")
  refuseIf (offence.slashBasisPoints = 0 ∨ offence.slashBasisPoints > 10000) (invalid " slash ratio is invalid")
  refuseIf (offence.removalHeight < offence.observedHeight + 2)
    (invalid " removal height violates the validator update delay")
  refuseIf (!offence.evidenceTimePresent ∧
      (offence.evidenceTimeUnix ≠ 0 ∨ offence.evidenceTimeNanosecond ≠ 0))
    (invalid " has unmarked evidence time fields")
  refuseIf (offence.evidenceTimePresent ∧
      (offence.evidenceTimeNanosecond < 0 ∨ offence.evidenceTimeNanosecond ≥ 1000000000))
    (invalid " evidence nanosecond is invalid")

/-- The identities of a lifecycle, in the order of their consensus addresses. The source ranges over
the map; the outcome of its checks does not depend on the order, only which message comes first. -/
def orderedIdentities (lifecycle : ValidatorLifecycle) : List (String × ValidatorIdentity) :=
  lifecycle.validators.sortedKeys.map fun key => (key, GoMap.get lifecycle.validators key)

/-- What the loop over identities has seen so far. -/
structure IdentityScan where
  seenAccounts : List String := []
  seenPublicKeys : List String := []
  totalPower : Int64 := 0

/-- One round of the identity loop of `validateValidatorLifecycle`. -/
def scanIdentity [Primitives] (scan : IdentityScan) (entry : String × ValidatorIdentity) :
    Result IdentityScan := do
  let identity := entry.2
  refuseIf (entry.1 ≠ identity.consensusAddress) (newError ("validator lifecycle key " ++ quote entry.1 ++
    " does not match consensus address " ++ quote identity.consensusAddress))
  validateValidatorIdentity identity
  refuseIf (identity.account ∈ scan.seenAccounts)
    (newError ("validator lifecycle account " ++ quote identity.account ++ " is duplicated"))
  refuseIf (identity.publicKey ∈ scan.seenPublicKeys)
    (newError ("validator lifecycle public key " ++ quote identity.publicKey ++ " is duplicated"))
  refuseIf (scan.totalPower > maxInt64 / 8 - identity.power)
    (newError "validator lifecycle exceeds CometBFT maximum total voting power")
  return {
    seenAccounts := identity.account :: scan.seenAccounts
    seenPublicKeys := identity.publicKey :: scan.seenPublicKeys
    totalPower := scan.totalPower + identity.power }

/-- The identity bound to an account; a lifecycle that passes its checks binds an account once. -/
def identityByAccount (lifecycle : ValidatorLifecycle) (account : String) : Option ValidatorIdentity :=
  ((orderedIdentities lifecycle).find? fun entry => entry.2.account = account).map Prod.snd

/-- `validateValidatorLifecycle`. -/
def validateValidatorLifecycle [Primitives] (lifecycle : ValidatorLifecycle) (validators : List String) :
    Result Unit := do
  refuseIf (GoMap.len lifecycle.validators = 0) (newError "validator lifecycle must contain identities")
  refuseIf (GoMap.len lifecycle.validators > maxValidators)
    (newError "validator lifecycle exceeds 4096 identities")
  refuseIf (GoMap.len lifecycle.offences > maxValidatorOffences)
    (newError "validator lifecycle exceeds 1000000 offences")
  let scan ← (orderedIdentities lifecycle).foldlM scanIdentity {}
  validators.forM fun account =>
    refuseIf (account ∉ scan.seenAccounts)
      (newError ("validator lifecycle is missing genesis account " ++ quote account))
  lifecycle.offences.sortedKeys.forM fun key =>
    validateValidatorOffence key (GoMap.get lifecycle.offences key) (identityByAccount lifecycle)

namespace Store

/-- The keys at which two maps answer differently. -/
def changedKeys {ν : Type} [DecidableEq ν] (previous next : GoMap String ν) : Finset String :=
  (previous.keys ∪ next.keys).filter fun key => previous.lookup key ≠ next.lookup key

/-- `SetValidatorLifecycle`. -/
def setValidatorLifecycle [Primitives] (s : Store) (lifecycle : ValidatorLifecycle) : Result Store := do
  validateValidatorLifecycle lifecycle s.validators
  let previous := s.validatorLifecycle.getD {}
  return { s with
    validatorLifecycle := some lifecycle
    mutations := { s.mutations with
      validatorIdentities := s.mutations.validatorIdentities ∪
        changedKeys previous.validators lifecycle.validators
      validatorOffences := s.mutations.validatorOffences ∪
        changedKeys previous.offences lifecycle.offences } }

/-- `InitializeValidatorLifecycle`. -/
def initializeValidatorLifecycle [Primitives] (s : Store) (identities : List ValidatorIdentity) :
    Result Store := do
  refuseIf (s.validatorLifecycle ≠ none) (newError "validator lifecycle is already initialized")
  let validators ← identities.foldlM (fun (m : GoMap String ValidatorIdentity) identity => do
    refuseIf (identity.consensusAddress ∈ m)
      (newError ("validator consensus address " ++ quote identity.consensusAddress ++ " is duplicated"))
    return m.insert identity.consensusAddress identity) ∅
  s.setValidatorLifecycle { validators }

/-- `ValidatorIdentityByConsensusAddress`. -/
def validatorIdentityByConsensusAddress (s : Store) (consensusAddress : String) : Option ValidatorIdentity :=
  s.validatorLifecycle.bind fun lifecycle => lifecycle.validators.lookup consensusAddress

/-- `ValidatorIdentityByAccount`. -/
def validatorIdentityByAccount (s : Store) (account : String) : Option ValidatorIdentity :=
  s.validatorLifecycle.bind fun lifecycle => identityByAccount lifecycle account

/-- `ValidatorRoot`. -/
def validatorRoot [Primitives] (s : Store) : String :=
  s.validatorLifecycle.elim "" fun lifecycle => keccakHex (utf8Bytes lifecycle.json)

end Store

end ChainLab.State
