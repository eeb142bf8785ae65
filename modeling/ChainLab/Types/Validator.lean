import ChainLab.Types.Transaction

/-! Validator identities, recorded offences and runtime admission certificates. -/

namespace ChainLab.Types

open ChainLab.Lib

/-- The validator is active at `h` when `activeHeight ≤ h < inactiveHeight`, or from `activeHeight` on
when `inactiveHeight` is zero. An `unbondingHeight` of zero keeps the stake locked. -/
structure ValidatorIdentity where
  account : String
  consensusAddress : String
  publicKey : String
  power : Int64
  activeHeight : Int64
  inactiveHeight : Int64 := 0
  unbondingHeight : Int64 := 0
  deriving DecidableEq, Inhabited

structure ValidatorOffence where
  validator : String
  height : Int64
  type : Int32
  observedHeight : Int64
  slashBasisPoints : UInt32
  slashAmount : UInt64
  removalHeight : Int64
  evidenceTimePresent : Bool := false
  evidenceTimeUnix : Int64 := 0
  evidenceTimeNanosecond : Int32 := 0
  deriving DecidableEq, Inhabited

structure ValidatorLifecycle where
  validators : GoMap String ValidatorIdentity := ∅
  offences : GoMap String ValidatorOffence := ∅
  deriving DecidableEq, Inhabited

structure RuntimeValidatorAdmissionSignature where
  validator : String
  signature : String
  deriving DecidableEq, Inhabited

/-- A nil signature slice is `none`: it is written as `null`, an empty one as `[]`. -/
structure RuntimeValidatorAdmissionCertificate where
  authorizationHeight : Int64
  validatorRoot : String
  identity : ValidatorIdentity
  signatures : Option (List RuntimeValidatorAdmissionSignature)
  deriving DecidableEq, Inhabited

private def heightField (name : String) (value : Int64) : Option (String × JsonText) :=
  jsonOmitEmpty (value = 0) name (jsonInt value)

def ValidatorIdentity.json (identity : ValidatorIdentity) : JsonText :=
  jsonObject [jsonField "account" (jsonString identity.account),
    jsonField "consensus_address" (jsonString identity.consensusAddress),
    jsonField "public_key" (jsonString identity.publicKey), jsonField "power" (jsonInt identity.power),
    jsonField "active_height" (jsonInt identity.activeHeight),
    heightField "inactive_height" identity.inactiveHeight,
    heightField "unbonding_height" identity.unbondingHeight]

def ValidatorOffence.json (offence : ValidatorOffence) : JsonText :=
  jsonObject [jsonField "validator" (jsonString offence.validator),
    jsonField "height" (jsonInt offence.height), jsonField "type" (jsonInt offence.type.toInt64),
    jsonField "observed_height" (jsonInt offence.observedHeight),
    jsonField "slash_basis_points" (jsonUint offence.slashBasisPoints.toUInt64),
    jsonField "slash_amount" (jsonUint offence.slashAmount),
    jsonField "removal_height" (jsonInt offence.removalHeight),
    jsonOmitEmpty (!offence.evidenceTimePresent) "evidence_time_present"
      (jsonBool offence.evidenceTimePresent),
    heightField "evidence_time_unix" offence.evidenceTimeUnix,
    heightField "evidence_time_nanosecond" offence.evidenceTimeNanosecond.toInt64]

def ValidatorLifecycle.json (lifecycle : ValidatorLifecycle) : JsonText :=
  jsonObject [jsonField "validators" (jsonMap ValidatorIdentity.json lifecycle.validators),
    jsonField "offences" (jsonMap ValidatorOffence.json lifecycle.offences)]

private def RuntimeValidatorAdmissionSignature.json (item : RuntimeValidatorAdmissionSignature) :
    JsonText :=
  jsonObject [jsonField "validator" (jsonString item.validator),
    jsonField "signature" (jsonString item.signature)]

def RuntimeValidatorAdmissionCertificate.json (certificate : RuntimeValidatorAdmissionCertificate) :
    JsonText :=
  jsonObject [jsonField "authorization_height" (jsonInt certificate.authorizationHeight),
    jsonField "validator_root" (jsonString certificate.validatorRoot),
    jsonField "identity" certificate.identity.json,
    jsonField "signatures" (certificate.signatures.elim "null".toList fun items =>
      jsonArray (items.map RuntimeValidatorAdmissionSignature.json))]

end ChainLab.Types
