import ChainLab.Contracts.Metering

/-! The native contracts: owned accounts, multisig accounts, counters and tokens. -/

namespace ChainLab.Contracts

open ChainLab.Lib ChainLab.Types ChainLab.State ChainLab.Crypto

/-- `normalizeAddress` of this package: no check, only the case and the blanks. -/
def normalizeAddress (address : String) : String := toLower (trimSpace address)

/-! ### Accounts -/

/-- `validatedAccountOwner`. -/
def validatedAccountOwner (raw account : String) : Result String := do
  refuseIf (trimSpace raw = "") (newError "account owner is required")
  let owner ← (Crypto.normalizeAddress raw).mapError fun err =>
    if err.sentinel = some .invalidAddress then newError "account owner must be a 20-byte hex address"
    else if err.sentinel = some .zeroAddress then newError "account owner must not be the zero address"
    else err
  refuseIf (owner ≠ raw) (newError "account owner must be canonically encoded")
  refuseIf (owner = normalizeAddress account) (newError "account owner must differ from account address")
  return owner

/-- `storedAccountOwner`. -/
def storedAccountOwner (ctx : Context) : Native String := do
  let raw ← ctx.getStorage "owner"
  refuseIf (trimSpace raw = "") (wrapError .contractStateFault "account owner is not set")
  refuseIf (¬IsCanonicalAddress raw) (wrapError .contractStateFault "invalid stored account owner")
  refuseIf (raw = normalizeAddress ctx.address)
    (wrapError .contractStateFault "stored account owner equals account")
  return raw

/-- The recovery entries that end with a change of owner. -/
def rotatedRecoveryKeys : List String :=
  ["recovery:pending_owner", "recovery:execute_after", "recovery:expires_at", "recovery:approvals",
    "recovery:votes"]

namespace AccountContract

/-- `Account.Deploy`. -/
def deploy (ctx : Context) (args : Fields) : Native (List Event) := do
  let owner ← validatedAccountOwner (GoMap.get args "owner") ctx.address
  ctx.setStorage "owner" owner
  return [{ type := "account.owner_set", attributes := GoMap.ofList [("owner", owner)] }]

/-- The `setOwner` method. -/
def setOwner (ctx : Context) (args : Fields) : Native (List Event) := do
  let current ← storedAccountOwner ctx
  refuseIf (normalizeAddress ctx.caller ≠ current) (newError "account setOwner requires current owner")
  let next ← validatedAccountOwner (GoMap.get args "owner") ctx.address
  ctx.setStorage "owner" next
  rotatedRecoveryKeys.forM ctx.deleteStorage
  let _ ← ctx.deleteStoragePrefix "session:"
  return [{ type := "account.owner_set", attributes :=
    GoMap.ofList [("old_owner", current), ("owner", next)] }]

/-- `Account.Call`. -/
def call (ctx : Context) (method : String) (args : Fields) : Native (List Event) :=
  if method = "setOwner" then setOwner ctx args
  else Action.fail (newError ("unknown account method " ++ quote method))

end AccountContract

/-! ### Multisig accounts -/

/-- One round of the owner loop of `parseMultisigOwners`. -/
def scanOwner (owners : List String) (part : String) : Result (List String) := do
  refuseIf (¬IsCanonicalAddress part) (newError "multisig owner must be a canonical 20-byte address")
  refuseIf (part ∈ owners) (newError "multisig owners must be unique")
  return owners ++ [part]

/-- `parseMultisigOwners`. -/
def parseMultisigOwners (raw : String) : Result (List String) := do
  refuseIf (len raw > maxMultisigOwners * 43 - 1) (newError "multisig owner count exceeds 16")
  let parts := split raw ','
  refuseIf (parts.length > maxMultisigOwners) (newError "multisig owner count exceeds 16")
  let owners ← parts.foldlM scanOwner []
  refuseIf (owners.length = 0) (newError "multisig owners are required")
  return owners

/-- `parseMultisigThreshold`. -/
def parseMultisigThreshold (raw : String) (ownerCount : Nat) : Result UInt64 := do
  let raw := trimSpace raw
  refuseIf (raw = "") (newError "multisig threshold is required")
  let threshold ← require (parseUint raw) (newError "multisig threshold must be positive")
  refuseIf (threshold = 0) (newError "multisig threshold must be positive")
  refuseIf (threshold > UInt64.ofNat ownerCount) (newError "multisig threshold exceeds owner count")
  return threshold

/-- `configureMultisig`. -/
def configureMultisig (ctx : Context) (args : Fields) : Native (List Event) := do
  let owners ← parseMultisigOwners (GoMap.get args "owners")
  let threshold ← parseMultisigThreshold (GoMap.get args "threshold") owners.length
  let ownersRaw := join owners ','
  let thresholdRaw := formatUint threshold
  ctx.setStorage "owners" ownersRaw
  ctx.setStorage "threshold" thresholdRaw
  return [{ type := "multisig.configured", attributes :=
    GoMap.ofList [("owners", ownersRaw), ("threshold", thresholdRaw)] }]

namespace MultisigContract

/-- `Multisig.Deploy`. -/
def deploy (ctx : Context) (args : Fields) : Native (List Event) := configureMultisig ctx args

/-- `Multisig.Call`. -/
def call (ctx : Context) (method : String) (args : Fields) : Native (List Event) :=
  if method = "setOwners" then do
    refuseIf (normalizeAddress ctx.caller ≠ normalizeAddress ctx.address)
      (newError "multisig setOwners requires self call")
    configureMultisig ctx args
  else Action.fail (newError ("unknown multisig method " ++ quote method))

end MultisigContract

/-! ### Counters -/

namespace CounterContract

/-- `Counter.Deploy`. -/
def deploy (ctx : Context) (args : Fields) : Native (List Event) := do
  let initial := if GoMap.get args "initial" = "" then "0" else GoMap.get args "initial"
  let parsed ← require (parseUint initial) (newError "invalid initial counter value")
  refuseIf (formatUint parsed ≠ initial) (newError "invalid initial counter value")
  ctx.setStorage "count" initial
  return [{ type := "counter.initialized", attributes := GoMap.ofList [("count", initial)] }]

/-- The `increment` method. -/
def increment (ctx : Context) (args : Fields) : Native (List Event) := do
  let amount := if GoMap.get args "amount" = "" then "1" else GoMap.get args "amount"
  let delta ← require (parseUint amount) (newError "invalid increment amount")
  refuseIf (formatUint delta ≠ amount) (newError "invalid increment amount")
  let currentRaw ← ctx.getStorage "count"
  refuseIf (currentRaw = "") (wrapError .contractStateFault "stored counter value is missing")
  let current ← require (parseUint currentRaw) (wrapError .contractStateFault "invalid stored counter value")
  refuseIf (formatUint current ≠ currentRaw) (wrapError .contractStateFault "invalid stored counter value")
  refuseIf (maxUint64 - current < delta) (newError "counter overflow")
  let nextRaw := formatUint (current + delta)
  ctx.setStorage "count" nextRaw
  return [{ type := "counter.incremented", attributes := GoMap.ofList [("count", nextRaw)] }]

/-- `Counter.Call`. -/
def call (ctx : Context) (method : String) (args : Fields) : Native (List Event) :=
  if method = "increment" then increment ctx args
  else Action.fail (newError ("unknown counter method " ++ quote method))

end CounterContract

/-! ### Tokens -/

/-- `validTokenSymbol`. -/
def validTokenSymbol (symbol : String) : Bool :=
  2 ≤ len symbol && len symbol ≤ 16 && (runes symbol).all fun c => c.isUpper || c.isDigit

/-- `parseAmount`. -/
def parseAmount (raw : String) : Result UInt64 := do
  refuseIf (raw = "") (newError "amount is required")
  let amount ← require (parseUint raw) (newError "invalid amount")
  refuseIf (amount = 0) (newError "amount must be positive")
  refuseIf (formatUint amount ≠ raw) (newError "amount must be canonically encoded")
  return amount

/-- `canonicalTokenAddress`. -/
def canonicalTokenAddress (raw : String) : Result String := do
  refuseIf (¬IsCanonicalAddress raw) (newError "token address must be a canonical 20-byte address")
  return raw

/-- `storedTokenOwner`. -/
def storedTokenOwner (ctx : Context) : Native String := do
  let raw ← ctx.getStorage "owner"
  refuseIf (¬IsCanonicalAddress raw) (wrapError .contractStateFault "invalid stored token owner")
  return raw

/-- A stored balance; an absent one is zero, and zero is never stored. -/
def parseTokenBalance (raw : String) : Result UInt64 :=
  if raw = "" then .ok 0
  else do
    let invalid := wrapError .contractStateFault "invalid stored token balance"
    let value ← require (parseUint raw) invalid
    refuseIf (value = 0 ∨ formatUint value ≠ raw) invalid
    return value

/-- `tokenBalance`. -/
def tokenBalance (ctx : Context) (address : String) : Native UInt64 := do
  let raw ← ctx.getStorage ("balance:" ++ toLower address)
  parseTokenBalance raw

/-- `addTokenBalance`. -/
def addTokenBalance (ctx : Context) (address : String) (amount : UInt64) : Native Unit := do
  let current ← tokenBalance ctx address
  refuseIf (maxUint64 - current < amount) (newError "token balance overflow")
  ctx.setStorage ("balance:" ++ address) (formatUint (current + amount))

/-- `subTokenBalance`. -/
def subTokenBalance (ctx : Context) (address : String) (amount : UInt64) : Native Unit := do
  let current ← tokenBalance ctx address
  refuseIf (current < amount) (newError "insufficient token balance")
  if current - amount = 0 then ctx.deleteStorage ("balance:" ++ address)
  else ctx.setStorage ("balance:" ++ address) (formatUint (current - amount))

namespace TokenContract

/-- `Token.Deploy`. -/
def deploy (ctx : Context) (args : Fields) : Native (List Event) := do
  let symbol := GoMap.get args "symbol"
  refuseIf (!validTokenSymbol symbol)
    (newError "token symbol must be 2-16 uppercase ASCII letters or digits")
  ctx.setStorage "symbol" symbol
  ctx.setStorage "owner" ctx.caller
  return [{ type := "token.initialized", attributes := GoMap.ofList [("symbol", symbol)] }]

/-- The `mint` method. -/
def mint (ctx : Context) (args : Fields) : Native (List Event) := do
  let owner ← storedTokenOwner ctx
  refuseIf (owner ≠ ctx.caller) (newError "only token owner can mint")
  let dest ← canonicalTokenAddress (GoMap.get args "to")
  let amount ← parseAmount (GoMap.get args "amount")
  addTokenBalance ctx dest amount
  return [{ type := "token.minted", attributes :=
    GoMap.ofList [("to", dest), ("amount", GoMap.get args "amount")] }]

/-- The `transfer` method. -/
def transfer (ctx : Context) (args : Fields) : Native (List Event) := do
  let dest ← canonicalTokenAddress (GoMap.get args "to")
  let amount ← parseAmount (GoMap.get args "amount")
  subTokenBalance ctx ctx.caller amount
  addTokenBalance ctx dest amount
  return [{ type := "token.transferred", attributes := GoMap.ofList [("from", ctx.caller),
    ("to", dest), ("amount", GoMap.get args "amount")] }]

/-- `Token.Call`. -/
def call (ctx : Context) (method : String) (args : Fields) : Native (List Event) :=
  if method = "mint" then mint ctx args
  else if method = "transfer" then transfer ctx args
  else Action.fail (newError ("unknown token method " ++ quote method))

end TokenContract

end ChainLab.Contracts
