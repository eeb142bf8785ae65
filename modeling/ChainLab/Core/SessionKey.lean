import ChainLab.Contracts.Limits
import ChainLab.Core.Fees

/-! Session keys: policies the owner of an `account.v1` account stores for other signers. -/

namespace ChainLab.Core

open ChainLab.Lib ChainLab.Types ChainLab.Crypto ChainLab.State ChainLab.Contracts

def sessionEpochKey : String := "session:epoch"
def maxSessionKeys : Nat := 16

/-- `parsePositiveUint`. -/
def parsePositiveUint (raw field : String) : Result UInt64 := do
  let value ← require (parseUint raw) (newError (field ++ " must be positive"))
  refuseIf (value = 0 ∨ formatUint value ≠ raw) (newError (field ++ " must be positive"))
  return value

/-- A limit that may be left out; a text that is present must be a positive number. -/
def parseOptionalLimit (raw : String) : Result UInt64 :=
  if raw = "" then .ok 0 else parsePositiveUint raw "session key limit"

/-- `parseOptionalUint`. -/
def parseOptionalUint (raw field : String) : Result UInt64 :=
  if raw = "" then .ok 0
  else do
    let value ← require (parseUint raw) (newError (field ++ " must be an unsigned integer"))
    refuseIf (formatUint value ≠ raw) (newError (field ++ " must be an unsigned integer"))
    return value

/-- `optionalCanonicalAddress`. -/
def optionalCanonicalAddress (raw field : String) : Result String :=
  if raw = "" then .ok ""
  else do
    refuseIf (¬IsCanonicalAddress raw) (newError (field ++ " must be a canonical 20-byte address"))
    return raw

/-- `isAccountV1Authority`. -/
def isAccountV1Authority (account : Account) : Bool :=
  account.codeID = accountCodeID || (account.codeID = "" && account.delegatedCodeID = accountCodeID)

/-- `sessionKeyStoragePrefix`. -/
def sessionKeyStoragePrefix (key : String) : String := "session:" ++ toLower (trimSpace key) ++ ":"

/-- A parse failure of stored state, reported as a contract state fault. -/
def stateFault (err : GoError) : GoError := wrapError .contractStateFault err.text

/-- `sessionEpoch`. -/
def sessionEpoch (store : Store) (account : String) : Result UInt64 :=
  (parseOptionalUint (store.getStorage account sessionEpochKey) "session epoch").mapError stateFault

structure SessionKeyPolicy where
  key : String
  limit : UInt64
  spent : UInt64
  expires : UInt64
  toAddress : String
  callTo : String
  callMethod : String

/-- `activeSessionKeyCount`: the keys with a stored epoch, stale ones included. -/
def activeSessionKeyCount (store : Store) (account : String) : Nat :=
  (((store.getAccount account).storage.keys.filter fun key =>
    hasPrefix key "session:" ∧ hasSuffix key ":epoch" ∧ key ≠ sessionEpochKey).image fun key =>
      trimSuffix (trimPrefix key "session:") ":epoch").card

/-- `parseSessionKeyPolicy`. -/
def parseSessionKeyPolicy (store : Store) (account key : String) : Result SessionKeyPolicy := do
  let key := toLower (trimSpace key)
  let stored := fun name => store.getStorage account (sessionKeyStoragePrefix key ++ name)
  let limit ← (parseOptionalLimit (trimSpace (stored "limit"))).mapError fun _ =>
    wrapError .contractStateFault "invalid stored session key limit"
  let spent ← (parseOptionalUint (stored "spent") "session key spent").mapError stateFault
  let expires ← (parseOptionalUint (stored "expires") "session key expires").mapError stateFault
  let callTo ← (optionalCanonicalAddress (stored "call_to") "stored session key call target").mapError stateFault
  let callMethod := trimSpace (stored "call_method")
  refuseIf ((callTo = "") ≠ (callMethod = ""))
    (wrapError .contractStateFault "session key call policy is incomplete")
  refuseIf (limit = 0 ∧ callTo = "") (newError "session key is not authorized")
  let currentEpoch ← sessionEpoch store account
  let policyEpoch ← (parseOptionalUint (stored "epoch") "session key epoch").mapError stateFault
  refuseIf (policyEpoch ≠ currentEpoch) (newError "session key is not authorized")
  let toAddress ← (optionalCanonicalAddress (stored "to") "stored session key transfer target").mapError stateFault
  return { key, limit, spent, expires, toAddress, callTo, callMethod }

/-- `validateSessionKeyTransfer`. -/
def validateSessionKeyTransfer (tx : Transaction) (policy : SessionKeyPolicy) : Result Unit := do
  refuseIf (policy.limit = 0) (newError "session key is not authorized for transfer")
  refuseIf (policy.toAddress ≠ "" ∧ !equalFold policy.toAddress tx.toAddress)
    (newError "session key recipient not allowed")
  refuseIf (policy.spent > policy.limit) (newError "session key spent exceeds limit")
  refuseIf (tx.value > policy.limit - policy.spent) (newError "session key transfer exceeds remaining limit")

/-- `validateSessionKeyCall`. -/
def validateSessionKeyCall (tx : Transaction) (policy : SessionKeyPolicy) : Result Unit := do
  refuseIf (policy.callTo = "" ∨ policy.callMethod = "") (newError "session key is not authorized for call")
  refuseIf (!equalFold policy.callTo tx.toAddress) (newError "session key call target not allowed")
  refuseIf (trimSpace (GoMap.get tx.payload "method") ≠ policy.callMethod)
    (newError "session key call method not allowed")

/-- `validateSessionKeyAuthorization`. -/
def validateSessionKeyAuthorization (store : Store) (tx : Transaction) (signer : String)
    (blockHeight : UInt64) : Result Unit := do
  let policy ← parseSessionKeyPolicy store tx.fromAddress signer
  refuseIf (policy.expires ≠ 0 ∧ blockHeight > policy.expires) (newError "session key expired")
  match tx.type with
  | .transfer => validateSessionKeyTransfer tx policy
  | .call => validateSessionKeyCall tx policy
  | _ => .error (newError "session key can only authorize transfer or call")

/-- `applySessionKeyUsage`: the event of a use, or none when the signer is not a session key. -/
def applySessionKeyUsage (store : Store) (tx : Transaction) : Result (Store × Option Event) :=
  let signer := toLower (trimSpace tx.signer)
  let owner := toLower (trimSpace (store.getStorage tx.fromAddress "owner"))
  if signer = "" ∨ !isAccountV1Authority (store.getAccount tx.fromAddress) ∨ signer = owner then
    .ok (store, none)
  else do
    let policy ← parseSessionKeyPolicy store tx.fromAddress signer
    if tx.type = .call then
      return (store, some { type := "account.session_key_used", attributes := GoMap.ofList [
        ("account", toLower tx.fromAddress), ("key", signer), ("type", "call"),
        ("to", toLower tx.toAddress), ("method", trimSpace (GoMap.get tx.payload "method"))] })
    else
      let spent ← checkedAdd policy.spent tx.value
      let store ← store.setStorage tx.fromAddress (sessionKeyStoragePrefix signer ++ "spent") (formatUint spent)
      return (store, some { type := "account.session_key_used", attributes := GoMap.ofList [
        ("account", toLower tx.fromAddress), ("key", signer), ("spent", formatUint spent),
        ("value", formatUint tx.value)] })

/-- Store a policy field, or drop it when it holds its zero value. -/
def putPolicyField (store : Store) (account key : String) (value : Option String) : Result Store :=
  match value with
  | some text => store.setStorage account key text
  | none => .ok (store.deleteStorage account key)

/-- The `add` action of `executeSessionKey`. -/
def addSessionKey (store : Store) (tx : Transaction) (key : String) (attributes : Fields) :
    Result (Store × Event) := do
  let account := tx.fromAddress
  let policyKey := fun name => sessionKeyStoragePrefix key ++ name
  refuseIf (store.getStorage account (policyKey "epoch") = "" ∧
      activeSessionKeyCount store account ≥ maxSessionKeys) (newError "session key count exceeds 16")
  let limit ← parseOptionalLimit (trimSpace (GoMap.get tx.payload "limit"))
  let expires ← parseOptionalUint (GoMap.get tx.payload "expires") "session key expires"
  let allowedTo ← optionalCanonicalAddress (GoMap.get tx.payload "to") "session key transfer target"
  let callTo ← optionalCanonicalAddress (GoMap.get tx.payload "call_to") "session key call target"
  let callMethod := trimSpace (GoMap.get tx.payload "call_method")
  refuseIf ((callTo = "") ≠ (callMethod = ""))
    (newError "session key call policy requires call_to and call_method")
  refuseIf (limit = 0 ∧ callTo = "") (newError "session key requires transfer limit or call policy")
  let limitText := if limit = 0 then none else some (formatUint limit)
  let expiresText := if expires = 0 then none else some (formatUint expires)
  let toText := if allowedTo = "" then none else some allowedTo
  let callToText := if callTo = "" then none else some callTo
  let callMethodText := if callTo = "" then none else some callMethod
  let store ← putPolicyField store account (policyKey "limit") limitText
  let store ← putPolicyField store account (policyKey "spent") (if limit = 0 then none else some "0")
  let store ← putPolicyField store account (policyKey "expires") expiresText
  let store ← putPolicyField store account (policyKey "to") toText
  let store ← putPolicyField store account (policyKey "call_to") callToText
  let store ← putPolicyField store account (policyKey "call_method") callMethodText
  let epoch ← sessionEpoch store account
  let store ← store.setStorage account (policyKey "epoch") (formatUint epoch)
  let named := [("limit", limitText), ("expires", expiresText), ("to", toText), ("call_to", callToText),
    ("call_method", callMethodText)]
  let attributes := named.foldl (fun fields entry =>
    entry.2.elim fields fun text => fields.insert entry.1 text) attributes
  return (store, { type := "account.session_key_added", attributes })

/-- The policy fields that `revoke` deletes. -/
def sessionPolicyFields : List String := ["limit", "spent", "expires", "to", "call_to", "call_method", "epoch"]

/-- `executeSessionKey`. -/
def executeSessionKey (store : Store) (tx : Transaction) : Result (Store × Event) := do
  refuseIf (!isAccountV1Authority (store.getAccount tx.fromAddress))
    (newError "session key requires account.v1 from account")
  let owner := toLower (trimSpace (store.getStorage tx.fromAddress "owner"))
  refuseIf (owner = "" ∨ toLower (trimSpace tx.signer) ≠ owner)
    (newError "session key changes require account owner")
  let action := toLower (trimSpace (GoMap.get tx.payload "action"))
  let key := GoMap.get tx.payload "key"
  refuseIf (key = "") (newError "session key address is required")
  refuseIf (¬IsCanonicalAddress key) (newError "session key must be a canonical 20-byte address")
  let attributes : Fields := GoMap.ofList [("account", toLower tx.fromAddress), ("key", key)]
  if action = "add" then addSessionKey store tx key attributes
  else if action = "revoke" then
    let store := sessionPolicyFields.foldl (fun store name =>
      store.deleteStorage tx.fromAddress (sessionKeyStoragePrefix key ++ name)) store
    return (store, { type := "account.session_key_revoked", attributes })
  else .error (newError "session key action must be add or revoke")

end ChainLab.Core
