import ChainLab.Contracts.Limits
import ChainLab.Lib.Action
import ChainLab.State.Store

/-! Gas and resource budgets of contract invocations, and the metered storage operations that native
contracts work with. -/

namespace ChainLab.Contracts

open ChainLab.Lib ChainLab.Types ChainLab.State

/-- A limited `Meter`. -/
structure Meter where
  gasUsed : UInt64 := 0
  gasLimit : UInt64
  exhausted : Bool := false

namespace Meter

/-- `Charge`. Once exhausted a meter stays exhausted. -/
def charge (m : Meter) (amount : UInt64) : Result Unit × Meter :=
  if m.exhausted then (.error (sentinelError .contractOutOfGas), m)
  else if amount = 0 then (.ok (), m)
  else if amount > m.gasLimit - m.gasUsed then
    (.error (sentinelError .contractOutOfGas), { m with gasUsed := m.gasLimit, exhausted := true })
  else (.ok (), { m with gasUsed := m.gasUsed + amount })

/-- `Remaining`. -/
def remaining (m : Meter) : UInt64 := if m.exhausted then 0 else m.gasLimit - m.gasUsed

end Meter

/-- `nativeInvocationBudget`. -/
structure NativeInvocationBudget where
  operations : Nat := 0
  writes : Nat := 0
  ioBytes : Nat := 0

/-- The contract an invocation runs as and the account that invoked it. -/
structure Context where
  address : String
  caller : String

/-- What an invocation works on: the caller's store, the gas meter and the storage budget. -/
structure Invocation where
  store : Store
  meter : Meter
  nativeBudget : NativeInvocationBudget := {}

abbrev Native := Action Invocation GoError

/-- A charge to the invocation's meter. -/
def charge (amount : UInt64) : Native Unit := fun s =>
  let charged := s.meter.charge amount
  (charged.1, { s with meter := charged.2 })

/-- `chargeNativeLinear`. -/
def chargeNativeLinear (base perUnit : UInt64) (units : List Nat) : Native Unit := do
  let totalUnits ← (units.foldlM (fun total unit => do
    refuseIf (maxUint64.toNat - total < unit) (wrapError .contractStateFault "gas size overflow")
    return total + unit) 0 : Result Nat)
  refuseIf (perUnit ≠ 0 ∧ totalUnits > (maxUint64.toNat - base.toNat) / perUnit.toNat)
    (wrapError .contractStateFault "gas cost overflow")
  charge (base + UInt64.ofNat totalUnits * perUnit)

/-- `validateNativeStorageKey`. -/
def validateNativeStorageKey (key : String) : Result Unit := do
  refuseIf (key = "") (wrapError .nativeResourceLimit "storage key is empty")
  refuseIf (len key > maxNativeStorageKeyBytes) (wrapError .nativeResourceLimit "storage key bytes")

/-- `consumeNativeStorageBudget`. -/
def consumeNativeStorageBudget (operations writes ioBytes : Nat) : Native Unit :=
  Action.update fun s => do
    let budget := s.nativeBudget
    refuseIf (operations > maxNativeStorageOperations - budget.operations ∨
        writes > maxNativeStorageWrites - budget.writes ∨
        ioBytes > maxNativeStorageIOBytes - budget.ioBytes)
      (wrapError .nativeResourceLimit "storage operation budget")
    return { s with nativeBudget := {
      operations := budget.operations + operations
      writes := budget.writes + writes
      ioBytes := budget.ioBytes + ioBytes } }

namespace Context

variable (ctx : Context)

/-- `GetStorage`. -/
def getStorage (key : String) : Native String := do
  validateNativeStorageKey key
  let value ← Action.read fun s => s.store.getStorage ctx.address key
  refuseIf (len value > maxNativeStorageValueBytes)
    (wrapError .contractStateFault "stored value exceeds limit")
  consumeNativeStorageBudget 1 0 (len key + len value)
  chargeNativeLinear nativeStorageReadBaseGas nativeStorageReadByteGas [len key, len value]
  return value

/-- The write that ends `SetStorage`. -/
def writeStorage (key value : String) : Native Unit :=
  Action.update fun s => do
    let store ← (s.store.setStorage ctx.address key value).mapError fun err =>
      if err.sentinel = some .storageLimit then wrapError .nativeResourceLimit "storage entries"
      else wrapError .contractStateFault "native storage write"
    return { s with store }

/-- `SetStorage`. -/
def setStorage (key value : String) : Native Unit := do
  validateNativeStorageKey key
  refuseIf (len value > maxNativeStorageValueBytes) (wrapError .nativeResourceLimit "storage value bytes")
  let entryCount ← Action.read fun s => s.store.storageEntryCount ctx.address
  refuseIf (entryCount > maxNativeStorageEntries)
    (wrapError .contractStateFault "stored entry count exceeds limit")
  let oldValue ← Action.read fun s => s.store.getStorage ctx.address key
  let present ← Action.read fun s => s.store.hasStorage ctx.address key
  refuseIf (!present ∧ entryCount = maxNativeStorageEntries)
    (wrapError .nativeResourceLimit "storage entries")
  refuseIf (len oldValue > maxNativeStorageValueBytes)
    (wrapError .contractStateFault "stored value exceeds limit")
  consumeNativeStorageBudget 1 1 (len key + len oldValue + len value)
  chargeNativeLinear nativeStorageWriteBaseGas nativeStorageWriteByteGas [len key, len oldValue, len value]
  ctx.writeStorage key value

/-- `DeleteStorage`. -/
def deleteStorage (key : String) : Native Unit := do
  validateNativeStorageKey key
  let oldValue ← Action.read fun s => s.store.getStorage ctx.address key
  refuseIf (len oldValue > maxNativeStorageValueBytes)
    (wrapError .contractStateFault "stored value exceeds limit")
  consumeNativeStorageBudget 1 1 (len key + len oldValue)
  chargeNativeLinear nativeStorageDeleteBaseGas nativeStorageDeleteByteGas [len key, len oldValue]
  Action.modify fun s => { s with store := s.store.deleteStorage ctx.address key }

/-- One round of the deletion loop of `DeleteStoragePrefix`, on the number of keys removed so far. -/
def deletePrefixed (keyPrefix : String) (removed : Nat) (key : String) : Native Nat :=
  if hasPrefix key keyPrefix then do
    let value ← Action.read fun s => s.store.getStorage ctx.address key
    refuseIf (len value > maxNativeStorageValueBytes)
      (wrapError .contractStateFault "stored value exceeds limit")
    consumeNativeStorageBudget 1 1 (len value)
    chargeNativeLinear nativeStorageDeleteBaseGas nativeStorageDeleteByteGas [len key, len value]
    Action.modify fun s => { s with store := s.store.deleteStorage ctx.address key }
    return removed + 1
  else return removed

/-- `DeleteStoragePrefix`. -/
def deleteStoragePrefix (keyPrefix : String) : Native Nat := do
  validateNativeStorageKey keyPrefix
  let keys ← Action.read fun s => s.store.sortedStorageKeys ctx.address
  refuseIf (keys.length > maxNativeStorageEntries)
    (wrapError .contractStateFault "stored entry count exceeds limit")
  keys.forM fun key => (validateNativeStorageKey key).mapError fun _ =>
    wrapError .contractStateFault "invalid stored key"
  consumeNativeStorageBudget keys.length 0 (len keyPrefix + (keys.map len).sum)
  chargeNativeLinear 0 nativeStorageScanEntryGas [keys.length]
  keys.foldlM (ctx.deletePrefixed keyPrefix) 0

end Context

/-- One round of the argument loop of `chargeNativeInvocation`, on the bytes counted so far. -/
def scanArgument (args : Fields) (total : Nat) (key : String) : Result Nat := do
  let value := GoMap.get args key
  refuseIf (len key > maxNativeArgumentKeyBytes ∨ len value > maxNativeArgumentValueBytes)
    (wrapError .nativeResourceLimit "argument bytes")
  refuseIf (total + len key > maxNativeInputBytes ∨ total + len key + len value > maxNativeInputBytes)
    (wrapError .nativeResourceLimit "total input bytes")
  return total + len key + len value

/-- `chargeNativeInvocation`. -/
def chargeNativeInvocation (operation : String) (args : Fields) : Native Unit := do
  refuseIf (operation = "" ∨ len operation > maxNativeMethodBytes ∨ len operation > maxNativeInputBytes)
    (wrapError .nativeResourceLimit "method bytes")
  refuseIf (GoMap.len args > maxNativeArgumentFields) (wrapError .nativeResourceLimit "argument fields")
  let total ← (args.sortedKeys.foldlM (scanArgument args) (len operation) : Result Nat)
  chargeNativeLinear nativeInvocationGas nativeInputByteGas [total]

/-- One attribute of an event, on the bytes counted so far. -/
def scanAttribute (attributes : Fields) (total : Nat) (key : String) : Result Nat := do
  let value := GoMap.get attributes key
  refuseIf (key = "" ∨ len key > maxNativeEventAttributeKeyBytes ∨
      len value > maxNativeEventAttributeValueBytes) (wrapError .nativeResourceLimit "event attribute bytes")
  refuseIf (total + len key > maxNativeEventBytes ∨ total + len key + len value > maxNativeEventBytes)
    (wrapError .nativeResourceLimit "event bytes")
  return total + len key + len value

/-- One event, on the bytes counted so far. -/
def scanEvent (total : Nat) (event : Event) : Result Nat := do
  refuseIf (event.type = "" ∨ len event.type > maxNativeEventTypeBytes ∨
      GoMap.len event.attributes > maxNativeEventAttributes) (wrapError .nativeResourceLimit "event shape")
  refuseIf (total + len event.type > maxNativeEventBytes) (wrapError .nativeResourceLimit "event bytes")
  event.attributes.sortedKeys.foldlM (scanAttribute event.attributes) (total + len event.type)

/-- `chargeNativeEvents`. -/
def chargeNativeEvents (events : List Event) : Native Unit := do
  refuseIf (events.length > maxNativeEvents) (wrapError .nativeResourceLimit "event count")
  let total ← (events.foldlM scanEvent 0 : Result Nat)
  events.forM fun _ => chargeNativeLinear nativeEventBaseGas 0 []
  chargeNativeLinear 0 nativeEventByteGas [total]

end ChainLab.Contracts
