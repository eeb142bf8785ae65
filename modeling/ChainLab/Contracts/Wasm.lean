import ChainLab.Contracts.Metering
import ChainLab.Contracts.WasmModule

/-! WebAssembly contracts. The engine is a parameter: it validates and compiles modules, and a compiled
export is a program that burns fuel, calls host functions and finishes or traps. The host functions and
their limits are the chain's own. -/

namespace ChainLab.Contracts

open ChainLab.Lib ChainLab.Types ChainLab.State

def wasmInstantiateGas : UInt64 := 100
def wasmHostCallGas : UInt64 := 100
def wasmByteGas : UInt64 := 1
def wasmStorageGrowthGas : UInt64 := 4
def wasmInstantiationByteGas : UInt64 := 1
def wasmMemoryPageGas : UInt64 := 1000
def wasmTableElementGas : UInt64 := 10
def wasmMaxKeyBytes : Nat := 256
def wasmMaxValueBytes : Nat := 64 * 1024
def wasmMaxReturnBytes : Nat := 64 * 1024
def wasmMaxEventTypeBytes : Nat := 128
def wasmMaxEventKeyBytes : Nat := 256
def wasmMaxEventValueBytes : Nat := 16 * 1024
def wasmMaxEvents : Nat := 64
def wasmMaxEventBytes : Nat := 64 * 1024
def wasmMaxStorageWrites : Nat := 128
def wasmMaxHostIOBytes : Nat := 1024 * 1024

/-- `instantiationGas`. -/
def WasmModuleResources.instantiationGas (r : WasmModuleResources) : UInt64 :=
  wasmInstantiateGas + r.codeBytes * wasmInstantiationByteGas + r.memoryPages * wasmMemoryPageGas +
    r.tableElements * wasmTableElementGas

/-! ### The engine -/

/-- The codes a trap can carry that the chain tells apart. -/
inductive TrapCode where
  | outOfFuel | stackOverflow
  | other (code : UInt8)
  deriving DecidableEq

/-- The entry points of a contract module that a transaction reaches. -/
inductive WasmExport where
  | deploy | call
  deriving DecidableEq

/-- A call of a host function: pointers and lengths into the guest's memory. -/
inductive HostCall where
  | argCopy (keyPtr keyLen dstPtr : UInt32)
  | storageCopy (keyPtr keyLen dstPtr : UInt32)
  | storageSet (keyPtr keyLen valuePtr valueLen : UInt32)
  | returnSet (valuePtr valueLen : UInt32)
  | emitEvent (typePtr typeLen keyPtr keyLen valuePtr valueLen : UInt32)

/-- A guest program: it burns fuel and then finishes, traps, fails inside the engine, or calls the host
with the contents of its exported memory and goes on with the result and the memory it gets back. -/
inductive Guest where
  | finish (burned : UInt64)
  | trap (burned : UInt64) (code : TrapCode)
  | fault (burned : UInt64)
  | call (burned : UInt64) (host : HostCall) (memory : Option (List UInt8))
    (resume : UInt32 → Option (List UInt8) → Guest)

inductive ValKind where
  | i32 | other
  deriving DecidableEq

structure WasmFunctionType where
  params : List ValKind
  results : List ValKind
  deriving DecidableEq

structure WasmMemoryType where
  is64 : Bool
  isShared : Bool
  minimum : UInt64
  maximum : Option UInt64

structure WasmImportType where
  module_ : String
  name : Option String
  function : Option WasmFunctionType

structure WasmExportType where
  name : String
  function : Option WasmFunctionType
  memory : Option WasmMemoryType

/-- The imports and exports of a compiled module. -/
structure WasmModuleType where
  imports : List WasmImportType
  exports : List WasmExportType

/-- The WebAssembly engine. -/
structure Engine where
  moduleValidate : List UInt8 → Bool
  newModule : List UInt8 → Option WasmModuleType
  guest : List UInt8 → WasmExport → Guest

/-! ### Compilation -/

/-- One import of `validateWasmABI`, with the names seen before it. -/
def scanWasmImport (seenImports : List String) (imported : WasmImportType) : Result (List String) := do
  let unnamed := newError "wasm imports must be named chainlab host functions"
  let name ← require imported.name unnamed
  refuseIf (imported.module_ ≠ wasmHostModule) unnamed
  let params ← require (wasmHostSignatures.lookup name)
    (newError ("wasm import " ++ quote name ++ " is not allowed"))
  refuseIf (name ∈ seenImports) (newError ("wasm import " ++ quote name ++ " is duplicated"))
  refuseIf (imported.function ≠ some { params := List.replicate params .i32, results := [.i32] })
    (newError ("wasm import " ++ quote name ++ " has an invalid signature"))
  return name :: seenImports

/-- What the export loop of `validateWasmABI` has found. -/
structure WasmExportScan where
  requiredFunctions : List String := []
  memoryPages : Option UInt64 := none

/-- One export of `validateWasmABI`. -/
def scanWasmExport (scan : WasmExportScan) (exported : WasmExportType) : Result WasmExportScan := do
  if exported.name ∈ ["deploy", "call", "read"] then
    refuseIf (exported.function ≠ some { params := [], results := [] })
      (newError ("wasm export " ++ quote exported.name ++ " must have signature () -> ()"))
    return { scan with requiredFunctions := exported.name :: scan.requiredFunctions }
  else if exported.name = "memory" then
    let single := newError "wasm must export exactly one memory"
    let memory ← require exported.memory single
    refuseIf (scan.memoryPages ≠ none) single
    refuseIf (memory.is64 ∨ memory.isShared ∨ memory.minimum = 0 ∨
        memory.minimum > wasmMaxMemoryPages.toUInt64)
      (newError "wasm memory type exceeds the version-1 policy")
    let unfixed := newError "wasm memory must declare a fixed version-1 size"
    let maximum ← require memory.maximum unfixed
    refuseIf (memory.minimum ≠ maximum ∨ maximum > wasmMaxMemoryPages.toUInt64) unfixed
    return { scan with memoryPages := some maximum }
  else .error (newError ("wasm export " ++ quote exported.name ++ " is not allowed"))

/-- `validateWasmABI`. -/
def validateWasmABI (module_ : WasmModuleType) (resources : WasmModuleResources) :
    Result WasmModuleResources := do
  let _ ← module_.imports.foldlM scanWasmImport []
  let scan ← module_.exports.foldlM scanWasmExport {}
  let memoryPages ← require scan.memoryPages (newError "wasm memory export is required")
  ["deploy", "call", "read"].forM fun name =>
    refuseIf (name ∉ scan.requiredFunctions) (newError ("wasm export " ++ quote name ++ " is required"))
  return { resources with memoryPages }

/-- A failure of code that was admitted before is a fault of the runtime. -/
def admittedFault {α : Type} (admitted : Bool) (text : String) (outcome : Result α) : Result α :=
  outcome.mapError fun err =>
    if admitted then wrapError .wasmRuntimeFault ("admitted wasm " ++ text) else err

/-- `compileWasmModule`. -/
def compileWasmModule (engine : Engine) (code : List UInt8) (admitted : Bool) :
    Result WasmModuleResources := do
  refuseIf (code = []) (newError "wasm bytecode is required")
  refuseIf (code.length > maxWASMModuleBytes) (newError "wasm module size exceeds 524288 bytes")
  let (policy, resources) ← admittedFault admitted "envelope mismatch"
    (validateWasmEnvelopeWithPolicy code { codeBytes := UInt64.ofNat code.length })
  admittedFault admitted "validation failed"
    (refuseIf (!engine.moduleValidate code) (newError "invalid wasm bytecode"))
  admittedFault admitted "call policy mismatch" policy.validateDirectCallGraph
  let module_ ← require (engine.newModule code) (wrapError .wasmRuntimeFault "wasm compilation failed")
  admittedFault admitted "ABI mismatch" (validateWasmABI module_ resources)

/-- `compileWASM`, with nothing cached. -/
def compileWASM (engine : Engine) (raw : List UInt8) (resources : WasmModuleResources) (admitted : Bool) :
    Result WasmModuleResources := do
  let compiled ← compileWasmModule engine raw admitted
  refuseIf (compiled ≠ resources) (wrapError .wasmRuntimeFault "wasm resource prefilter mismatch")
  return compiled

/-- `ValidateAndCacheWasmCode`, with nothing cached. -/
def validateAndCacheWasmCode (engine : Engine) (code : List UInt8) : Result Unit := do
  let resources ← validateWasmEnvelope code { codeBytes := UInt64.ofNat code.length }
  let _ ← compileWASM engine code resources false

/-! ### Host functions -/

/-- `wasmInvocation`, with the fuel of its engine store. -/
structure WasmInvocation where
  store : Store
  fuel : UInt64
  events : List Event := []
  hostIOBytes : Nat := 0
  eventBytes : Nat := 0
  storageWrites : Nat := 0

/-- A host function or guest step: an error ends the guest. -/
abbrev Hosted := Action WasmInvocation GoError

/-- `consumeFuel`: what cannot be paid for takes the rest. -/
def consumeFuel (amount : UInt64) : Hosted Unit := fun s =>
  if amount > s.fuel then (.error (sentinelError .contractOutOfGas), { s with fuel := 0 })
  else (.ok (), { s with fuel := s.fuel - amount })

/-- `prepareHostBytes`. -/
def prepareHostBytes (length maximum : Nat) (name : String) : Hosted Unit :=
  Action.update fun s => do
    refuseIf (length > maximum) (wrapError .wasmResourceLimit name)
    refuseIf (length > wasmMaxHostIOBytes - s.hostIOBytes) (wrapError .wasmResourceLimit "host I/O bytes")
    return { s with hostIOBytes := s.hostIOBytes + length }

/-- `prepareHostRead`. -/
def prepareHostRead (length maximum : Nat) (name : String) (gas : UInt64) : Hosted Unit := do
  prepareHostBytes length maximum name
  consumeFuel (gas + UInt64.ofNat length * wasmByteGas)

/-- `readString`. -/
def readString (memory : Option (List UInt8)) (ptr length : UInt32) : Result String := do
  let data ← require memory (wrapError .wasmResourceLimit "memory export")
  refuseIf (ptr.toNat + length.toNat > data.length) (wrapError .wasmResourceLimit "memory read")
  let raw := (data.drop ptr.toNat).take length.toNat
  require (String.fromUTF8? ⟨raw.toArray⟩) (sentinelError .wasmInvalidUTF8)

/-- `writeString`: the length written and the memory afterwards. -/
def writeString (memory : Option (List UInt8)) (ptr : UInt32) (value : String) :
    Result (UInt32 × Option (List UInt8)) := do
  let data ← require memory (wrapError .wasmResourceLimit "memory export")
  refuseIf (ptr.toNat + len value > data.length) (wrapError .wasmResourceLimit "memory write")
  return (UInt32.ofNat (len value),
    some (data.take ptr.toNat ++ utf8Bytes value.toList ++ data.drop (ptr.toNat + len value)))

section Host

variable (ctx : Context) (memory : Option (List UInt8))

/-- `wasmHostArgCopy`. -/
def wasmHostArgCopy (args : Fields) (keyPtr keyLen dstPtr : UInt32) :
    Hosted (UInt32 × Option (List UInt8)) := do
  prepareHostRead keyLen.toNat wasmMaxKeyBytes "argument key" wasmHostCallGas
  let key ← readString memory keyPtr keyLen
  let value := GoMap.get args key
  prepareHostRead (len value) wasmMaxValueBytes "argument value" 0
  writeString memory dstPtr value

/-- `wasmHostStorageCopy`. -/
def wasmHostStorageCopy (keyPtr keyLen dstPtr : UInt32) : Hosted (UInt32 × Option (List UInt8)) := do
  prepareHostRead keyLen.toNat wasmMaxKeyBytes "storage key" wasmHostCallGas
  let key ← readString memory keyPtr keyLen
  let value ← Action.read fun s => s.store.getStorage ctx.address key
  prepareHostRead (len value) wasmMaxValueBytes "storage value" 0
  writeString memory dstPtr value

/-- The bytes a write adds to the contract's storage. -/
def storageGrowth (store : Store) (key value : String) : Nat :=
  (if store.hasStorage ctx.address key then 0 else len key) +
    (len value - len (store.getStorage ctx.address key))

/-- The write that ends `wasmHostStorageSet`. -/
def writeGuestStorage (key value : String) : Hosted Unit :=
  Action.update fun s => do
    let store ← (s.store.setStorage ctx.address key value).mapError fun _ =>
      wrapError .wasmResourceLimit "storage entries"
    return { s with store, storageWrites := s.storageWrites + 1 }

/-- `wasmHostStorageSet`. -/
def wasmHostStorageSet (keyPtr keyLen valuePtr valueLen : UInt32) : Hosted Unit := do
  let storageWrites ← Action.read WasmInvocation.storageWrites
  refuseIf (storageWrites ≥ wasmMaxStorageWrites) (wrapError .wasmResourceLimit "storage writes")
  prepareHostBytes keyLen.toNat wasmMaxKeyBytes "storage key"
  prepareHostBytes valueLen.toNat wasmMaxValueBytes "storage value"
  consumeFuel (wasmHostCallGas + UInt64.ofNat (keyLen.toNat + valueLen.toNat) * wasmByteGas)
  let key ← readString memory keyPtr keyLen
  let value ← readString memory valuePtr valueLen
  let growth ← Action.read fun s => storageGrowth ctx s.store key value
  refuseIf (growth > maxUint64.toNat / wasmStorageGrowthGas.toNat) (sentinelError .wasmResourceLimit)
  consumeFuel (UInt64.ofNat growth * wasmStorageGrowthGas)
  writeGuestStorage ctx key value

/-- `wasmHostReturnSet`; the value is only looked at by reads. -/
def wasmHostReturnSet (valuePtr valueLen : UInt32) : Hosted Unit := do
  prepareHostRead valueLen.toNat wasmMaxReturnBytes "return value" wasmHostCallGas
  let _ ← (readString memory valuePtr valueLen : Result String)
  return ()

/-- `wasmHostEmitEvent`. -/
def wasmHostEmitEvent (typePtr typeLen keyPtr keyLen valuePtr valueLen : UInt32) : Hosted Unit := do
  let events ← Action.read WasmInvocation.events
  refuseIf (events.length ≥ wasmMaxEvents) (wrapError .wasmResourceLimit "event count")
  let totalBytes := typeLen.toNat + keyLen.toNat + valueLen.toNat
  let eventBytes ← Action.read WasmInvocation.eventBytes
  refuseIf (totalBytes > wasmMaxEventBytes - eventBytes) (wrapError .wasmResourceLimit "event bytes")
  prepareHostBytes typeLen.toNat wasmMaxEventTypeBytes "event type"
  prepareHostBytes keyLen.toNat wasmMaxEventKeyBytes "event key"
  prepareHostBytes valueLen.toNat wasmMaxEventValueBytes "event value"
  consumeFuel (wasmHostCallGas + UInt64.ofNat totalBytes * wasmByteGas)
  let eventType ← readString memory typePtr typeLen
  let key ← readString memory keyPtr keyLen
  let value ← readString memory valuePtr valueLen
  refuseIf (eventType = "" ∨ key = "") (wrapError .wasmResourceLimit "event shape")
  Action.modify fun s => { s with
    eventBytes := s.eventBytes + totalBytes
    events := s.events ++ [{ type := eventType, attributes := GoMap.ofList [(key, value)] }] }

end Host

/-- The host function a guest called: the number it returns, and the guest's memory afterwards. -/
def HostCall.run (ctx : Context) (args : Fields) (memory : Option (List UInt8)) :
    HostCall → Hosted (UInt32 × Option (List UInt8))
  | argCopy keyPtr keyLen dstPtr => wasmHostArgCopy memory args keyPtr keyLen dstPtr
  | storageCopy keyPtr keyLen dstPtr => wasmHostStorageCopy ctx memory keyPtr keyLen dstPtr
  | storageSet keyPtr keyLen valuePtr valueLen => do
    wasmHostStorageSet ctx memory keyPtr keyLen valuePtr valueLen
    return (0, memory)
  | returnSet valuePtr valueLen => do
    wasmHostReturnSet memory valuePtr valueLen
    return (0, memory)
  | emitEvent typePtr typeLen keyPtr keyLen valuePtr valueLen => do
    wasmHostEmitEvent memory typePtr typeLen keyPtr keyLen valuePtr valueLen
    return (0, memory)

/-! ### Invocations -/

/-- A trap of the guest; running out of fuel or of stack consumes the whole budget. -/
def trapGuest : TrapCode → Hosted Unit
  | .outOfFuel => fun s => (.error (sentinelError .contractOutOfGas), { s with fuel := 0 })
  | .stackOverflow => fun s => (.error (wrapError .wasmResourceLimit "stack"), { s with fuel := 0 })
  | .other code => Action.fail (wrapError .wasmGuestTrap ("trap code " ++ itoa code.toNat))

/-- The engine burns the fuel of guest code and traps where it runs out. -/
def burnFuel (amount : UInt64) : Hosted Unit := fun s =>
  if amount > s.fuel then trapGuest .outOfFuel s else (.ok (), { s with fuel := s.fuel - amount })

/-- A guest run to its end. -/
def Guest.run (ctx : Context) (args : Fields) : Guest → Hosted Unit
  | finish burned => burnFuel burned
  | trap burned code => do
    burnFuel burned
    trapGuest code
  | fault burned => do
    burnFuel burned
    Action.fail (sentinelError .wasmRuntimeFault)
  | call burned host memory resume => do
    burnFuel burned
    let returned ← host.run ctx args memory
    (resume returned.1 returned.2).run ctx args

/-- The charge for the fuel a guest used, and the outcome of its run. -/
def settleGuest (fuelLimit : UInt64) : Result Unit × WasmInvocation → Native (List Event)
  | (outcome, hosted) => do
    Action.modify fun s => { s with store := hosted.store }
    charge (fuelLimit - hosted.fuel)
    let _ ← (outcome : Result Unit)
    return hosted.events

/-- `wasmInvocation.call`. -/
def callGuest (guest : Guest) (resources : WasmModuleResources) (ctx : Context) (args : Fields) :
    Native (List Event) := do
  charge resources.instantiationGas
  let fuelLimit ← Action.read fun s => s.meter.remaining
  let store ← Action.read Invocation.store
  settleGuest fuelLimit (guest.run ctx args { store, fuel := fuelLimit })

/-! ### The built-in echo module -/

section Echo

/-- The rounds of `wasmU32` that are left; five suffice for a `uint32`. -/
def wasmU32From : Nat → UInt32 → List UInt8
  | 0, _ => []
  | rounds + 1, value =>
    let b := (value &&& 0x7f).toUInt8
    if value >>> 7 = 0 then [b] else (b ||| 0x80) :: wasmU32From rounds (value >>> 7)

/-- `wasmU32`. -/
def wasmU32 (value : UInt32) : List UInt8 := wasmU32From 5 value

/-- The rounds of `wasmI32` that are left; five suffice for an `int32`. -/
def wasmI32From : Nat → Int32 → List UInt8
  | 0, _ => []
  | rounds + 1, value =>
    let b := (value &&& 0x7f).toInt8.toUInt8
    let next := value >>> 7
    if (next = 0 ∧ b &&& 0x40 = 0) ∨ (next = -1 ∧ b &&& 0x40 ≠ 0) then [b]
    else (b ||| 0x80) :: wasmI32From rounds next

/-- `wasmI32Const`. -/
def wasmI32Const (value : UInt32) : List UInt8 := 0x41 :: wasmI32From 5 value.toInt32

def wasmLength (bytes : List UInt8) : List UInt8 := wasmU32 (UInt32.ofNat bytes.length)

/-- `wasmSection`. -/
def wasmSection (id : UInt8) (payload : List UInt8) : List UInt8 := id :: (wasmLength payload ++ payload)

/-- `wasmVector`. -/
def wasmVector (items : List (List UInt8)) : List UInt8 := wasmU32 (UInt32.ofNat items.length) ++ items.flatten

/-- `wasmName`. -/
def wasmName (value : String) : List UInt8 :=
  wasmLength (utf8Bytes value.toList) ++ utf8Bytes value.toList

/-- `wasmFuncType`. -/
def wasmFuncType (params results : List UInt8) : List UInt8 :=
  0x60 :: (wasmLength params ++ params ++ wasmLength results ++ results)

/-- `wasmImport`. -/
def wasmImport (module_ name : String) (typeIndex : UInt32) : List UInt8 :=
  wasmName module_ ++ wasmName name ++ [0x00] ++ wasmU32 typeIndex

/-- `wasmExport`. -/
def wasmExport (name : String) (kind : UInt8) (index : UInt32) : List UInt8 :=
  wasmName name ++ [kind] ++ wasmU32 index

/-- `wasmCode`, with one group of locals. -/
def wasmCode (locals instructions : List UInt8) : List UInt8 :=
  let body := 0x01 :: (wasmLength locals ++ locals ++ instructions)
  wasmLength body ++ body

/-- `wasmDataSegment`. -/
def wasmDataSegment (offset : UInt32) (data : List UInt8) : List UInt8 :=
  [0x00] ++ wasmI32Const offset ++ [0x0b] ++ wasmLength data ++ data

/-- `wasmCall3`, and with a local as last argument `wasmCall4WithLocal` and `wasmCall6WithLocal`. -/
def wasmHostCall (functionIndex : UInt32) (arguments : List UInt32) (local_ : Option UInt32) : List UInt8 :=
  arguments.flatMap wasmI32Const ++ (local_.elim [] fun index => 0x20 :: wasmU32 index) ++
    0x10 :: wasmU32 functionIndex

def echoMessageOffset : UInt32 := 1024
def echoLastOffset : UInt32 := 1031
def echoInitializedOffset : UInt32 := 1035
def echoEchoedOffset : UInt32 := 1056
def echoValueOffset : UInt32 := 1067
def echoBufferOffset : UInt32 := 2048

/-- `wasmDeployInstructions` and `wasmCallInstructions`: copy the message, store it, announce it. -/
def wasmEchoInstructions (eventOffset eventLength : UInt32) : List UInt8 :=
  wasmHostCall 0 [echoMessageOffset, 7, echoBufferOffset] none ++ 0x21 :: wasmU32 0 ++
    wasmHostCall 2 [echoLastOffset, 4, echoBufferOffset] (some 0) ++ [0x1a] ++
    wasmHostCall 4 [eventOffset, eventLength, echoValueOffset, 5, echoBufferOffset] (some 0) ++ [0x1a, 0x0b]

/-- `wasmReadInstructions`. -/
def wasmReadInstructions : List UInt8 :=
  wasmHostCall 1 [echoLastOffset, 4, echoBufferOffset] none ++ 0x21 :: wasmU32 0 ++
    wasmHostCall 3 [echoBufferOffset] (some 0) ++ [0x1a, 0x0b]

/-- `wasmEchoModule`. -/
def wasmEchoModule : List UInt8 :=
  let i32s := fun n => List.replicate n (0x7f : UInt8)
  [0x00, 0x61, 0x73, 0x6d, 0x01, 0x00, 0x00, 0x00] ++
    wasmSection 1 (wasmVector [wasmFuncType (i32s 3) (i32s 1), wasmFuncType (i32s 4) (i32s 1),
      wasmFuncType (i32s 2) (i32s 1), wasmFuncType (i32s 6) (i32s 1), wasmFuncType [] []]) ++
    wasmSection 2 (wasmVector [wasmImport wasmHostModule "arg_copy" 0,
      wasmImport wasmHostModule "storage_copy" 0, wasmImport wasmHostModule "storage_set" 1,
      wasmImport wasmHostModule "return_set" 2, wasmImport wasmHostModule "emit_event" 3]) ++
    wasmSection 3 (wasmVector [wasmU32 4, wasmU32 4, wasmU32 4]) ++
    wasmSection 5 [0x01, 0x01, 0x01, 0x01] ++
    wasmSection 7 (wasmVector [wasmExport "memory" 0x02 0, wasmExport "deploy" 0x00 5,
      wasmExport "call" 0x00 6, wasmExport "read" 0x00 7]) ++
    wasmSection 10 (wasmVector [wasmCode [0x7f] (wasmEchoInstructions echoInitializedOffset 21),
      wasmCode [0x7f] (wasmEchoInstructions echoEchoedOffset 11), wasmCode [0x7f] wasmReadInstructions]) ++
    wasmSection 11 (wasmVector [wasmDataSegment 1024
      (utf8Bytes "messagelastwasm.echo.initializedwasm.echoedvalue".toList)])

end Echo

end ChainLab.Contracts
