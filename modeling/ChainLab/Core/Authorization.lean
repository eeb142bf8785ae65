import ChainLab.Core.MessageSchema

/-! Who may act for an account: its key, its owner, a session key, a guardian or a quorum of owners. -/

namespace ChainLab.Core

open ChainLab.Lib ChainLab.Types ChainLab.Crypto ChainLab.State ChainLab.Contracts

/-- `validateAccountRecoveryAuthorization`. -/
def validateAccountRecoveryAuthorization [Primitives] (store : Store) (tx : Transaction) : Result Unit := do
  refuseIf (tx.authorizations.length > 0) (newError "account recovery does not support multisig authorizations")
  refuseIf (trimSpace tx.signatureKind ≠ "" ∨ trimSpace tx.ethereumRawHash ≠ "")
    (newError "account recovery does not support ethereum signatures")
  refuseIf (trimSpace tx.paymaster ≠ "" ∨ trimSpace tx.paymasterSignature ≠ "")
    (newError "account recovery does not support paymasters")
  refuseIf (trimSpace tx.toAddress ≠ "" ∨ tx.value ≠ 0 ∨ tx.batch.length > 0)
    (newError "account recovery does not support to, value, or batch fields")
  let signer := toLower (trimSpace tx.signer)
  refuseIf (signer = "") (newError "account recovery requires signer")
  (validateCanonicalSignature "transaction signature" tx.signature).mapError fun _ =>
    newError "invalid transaction signature"
  refuseIf (!verify signer tx.signingBytes tx.signature) (newError "invalid transaction signature")
  refuseIf (!isAccountV1Authority (store.getAccount tx.fromAddress))
    (newError "account recovery requires account.v1 from account")
  let owner := store.getStorage tx.fromAddress "owner"
  refuseIf (¬IsCanonicalAddress owner) (wrapError .consensusExecutionFault "invalid account recovery owner")
  let action ← accountRecoveryAction tx.payload
  validateAccountRecoveryPayload action tx.payload
  if action = "configure" ∨ action = "cancel" ∨ action = "clear" then
    refuseIf (signer ≠ owner) (newError "account recovery owner action requires current owner")
  else
    let guardians ← storedRecoveryGuardians store tx.fromAddress
    refuseIf (!containsAddress guardians signer)
      (newError "account recovery guardian action requires configured guardian")

/-- `validateEthereumType2Authorization`. -/
def validateEthereumType2Authorization [Primitives] (tx : Transaction) : Result Unit := do
  refuseIf (trimSpace tx.signer ≠ "" ∨ tx.authorizations.length > 0 ∨ trimSpace tx.paymaster ≠ "")
    (newError "ethereum type2 transactions cannot use ChainLab signer, multisig, or paymaster fields")
  let digest ← ethereumType2SigningDigest tx
  refuseIf (!verifyDigest tx.fromAddress digest tx.signature)
    (newError "invalid ethereum type2 transaction signature")

/-- `multisigOwners`: the set of owners written in a stored list. -/
def multisigOwners (raw : String) : Result (Finset String) := do
  let owners ← (split raw ',').foldlM (fun owners part => do
    refuseIf (¬IsCanonicalAddress part) (newError "multisig owner is not canonically encoded")
    return insert part owners) ∅
  refuseIf (owners.card = 0) (newError "multisig owners are not set")
  return owners

/-- One round of the authorization loop of `validateMultisigAuthorization`. -/
def scanAuthorization [Primitives] (owners : Finset String) (message : List UInt8) (seen : Finset String)
    (authorization : Authorization) : Result (Finset String) := do
  let signer := toLower (trimSpace authorization.signer)
  refuseIf (signer = "" ∨ trimSpace authorization.signature = "")
    (newError "multisig authorization requires signer and signature")
  refuseIf (signer ∈ seen) (newError "duplicate multisig authorization")
  refuseIf (signer ∉ owners) (newError "multisig authorization signer is not an owner")
  refuseIf (!verify signer message authorization.signature)
    (newError "invalid multisig authorization signature")
  return insert signer seen

/-- `validateMultisigAuthorization`. -/
def validateMultisigAuthorization [Primitives] (store : Store) (tx : Transaction) : Result Unit := do
  refuseIf (trimSpace tx.signer ≠ "") (newError "multisig transaction cannot include signer")
  refuseIf ((store.getAccount tx.fromAddress).codeID ≠ multisigCodeID)
    (newError "transaction authorizations require multisig.v1 from account")
  refuseIf (tx.authorizations.length > maxMultisigOwners) (newError "multisig authorization count exceeds 16")
  let owners ← (multisigOwners (store.getStorage tx.fromAddress "owners")).mapError stateFault
  let unset := wrapError .contractStateFault "multisig threshold is not set"
  let threshold ← require (parseUint (trimSpace (store.getStorage tx.fromAddress "threshold"))) unset
  refuseIf (threshold = 0) unset
  refuseIf (threshold > UInt64.ofNat owners.card)
    (wrapError .contractStateFault "multisig threshold exceeds owner count")
  let seen ← tx.authorizations.foldlM (scanAuthorization owners tx.signingBytes) ∅
  refuseIf (UInt64.ofNat seen.card < threshold) (newError "multisig authorization threshold not met")

/-- The part of `validateTransactionAuthorization` for a named signer. -/
def validateSignerAuthorization [Primitives] (store : Store) (tx : Transaction) (signer : String)
    (blockHeight : UInt64) : Result Unit := do
  refuseIf (!verify signer tx.signingBytes tx.signature) (newError "invalid transaction signature")
  refuseIf (!isAccountV1Authority (store.getAccount tx.fromAddress))
    (newError "transaction signer requires account.v1 from account")
  let owner := toLower (trimSpace (store.getStorage tx.fromAddress "owner"))
  refuseIf (owner = "") (wrapError .contractStateFault "smart account owner is not set")
  refuseIf (¬IsCanonicalAddress owner) (wrapError .contractStateFault "invalid smart account owner")
  if signer = owner then .ok ()
  else validateSessionKeyAuthorization store tx signer blockHeight

/-- `validateTransactionAuthorization`. -/
def validateTransactionAuthorization [Primitives] (store : Store) (tx : Transaction)
    (blockHeight : UInt64) : Result Unit :=
  if tx.type = .accountRecovery then validateAccountRecoveryAuthorization store tx
  else if tx.type = .setCode then do
    refuseIf (trimSpace tx.signer ≠ "" ∨ tx.authorizations.length > 0 ∨ tx.signatureKind ≠ "")
      (newError "set_code must be signed directly by from")
    refuseIf (!verify tx.fromAddress tx.signingBytes tx.signature) (newError "invalid transaction signature")
  else if tx.signatureKind = signatureKindEthereumType2 then validateEthereumType2Authorization tx
  else if tx.authorizations.length > 0 then validateMultisigAuthorization store tx
  else if toLower (trimSpace tx.signer) = "" then
    refuseIf (!verify tx.fromAddress tx.signingBytes tx.signature) (newError "invalid transaction signature")
  else validateSignerAuthorization store tx (toLower (trimSpace tx.signer)) blockHeight

/-- `validatePaymasterAuthorization`. -/
def validatePaymasterAuthorization [Primitives] (tx : Transaction) : Result Unit :=
  if trimSpace tx.paymaster = "" then .ok ()
  else do
    refuseIf (trimSpace tx.paymasterSignature = "") (newError "paymaster signature is required")
    refuseIf (!verify tx.paymaster tx.paymasterSigningBytes tx.paymasterSignature)
      (newError "invalid paymaster signature")

end ChainLab.Core
