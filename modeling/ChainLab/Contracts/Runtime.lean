import ChainLab.Contracts.Builtin
import ChainLab.Contracts.Wasm
import ChainLab.Core.Executor

/-! The contract runtime the executor is run with: code lookup, deployment and calls. -/

namespace ChainLab.Contracts

open ChainLab.Lib ChainLab.Types ChainLab.State ChainLab.Crypto

/-- What a code id stands for. -/
inductive Contract where
  | account | multisig | counter | token
  | wasm (code : List UInt8) (resources : WasmModuleResources)

/-- `wasmContractResources` of the built-in echo contract. -/
def echoResources : WasmModuleResources := { codeBytes := UInt64.ofNat wasmEchoModule.length, memoryPages := 1 }

/-- The registry of `NewRuntimeWithDefaults`. -/
def registry (codeID : String) : Option Contract :=
  if codeID = accountCodeID then some .account
  else if codeID = multisigCodeID then some .multisig
  else if codeID = "counter.v1" then some .counter
  else if codeID = "token.v1" then some .token
  else if codeID = "wasm.echo.v1" then some (.wasm wasmEchoModule echoResources)
  else none

/-- `ensureWASMInvocationBudget`: nothing is charged when the budget suffices. -/
def ensureWASMInvocationBudget (resources : WasmModuleResources) : Native Unit := do
  let remaining ← Action.read fun s => s.meter.remaining
  if remaining ≥ resources.instantiationGas then return () else charge resources.instantiationGas

/-- `ensureWASMEncodedCodeBudget`. -/
def ensureWASMEncodedCodeBudget (bytecode : String) : Native Unit := do
  refuseIf (!hasPrefix bytecode "0x" ∨ len bytecode < 2 ∨ (len bytecode - 2) % 2 ≠ 0)
    (wrapError .wasmRuntimeFault "admitted wasm bytecode encoding is invalid")
  let codeBytes := (len bytecode - 2) / 2
  refuseIf (codeBytes > maxWASMModuleBytes)
    (wrapError .wasmRuntimeFault "admitted wasm bytecode exceeds module limit")
  ensureWASMInvocationBudget { codeBytes := UInt64.ofNat codeBytes }

/-- The part of `contractFor` for uploaded code. -/
def uploadedContract [Primitives] (engine : Engine) (codeID : String) (code : ContractCode) :
    Native Contract := do
  refuseIf (code.codeID ≠ codeID) (wrapError .wasmRuntimeFault "admitted wasm code record id mismatch")
  refuseIf (code.runtime ≠ "wasm") (wrapError .wasmRuntimeFault "admitted wasm runtime mismatch")
  refuseIf (code.meteringVersion ≠ wasmMeteringVersion)
    (wrapError .wasmRuntimeFault "admitted wasm metering version mismatch")
  ensureWASMEncodedCodeBudget code.bytecode
  let raw ← require (hexDecode (runes (trimPrefix code.bytecode "0x")))
    (wrapError .wasmRuntimeFault "admitted wasm bytecode encoding is invalid")
  refuseIf (wasmCodeID raw ≠ codeID) (wrapError .wasmRuntimeFault "admitted wasm bytecode hash mismatch")
  let resources ← (validateWasmEnvelope raw { codeBytes := UInt64.ofNat raw.length }).mapError fun _ =>
    wrapError .wasmRuntimeFault "admitted wasm envelope mismatch"
  ensureWASMInvocationBudget resources
  let resources ← compileWASM engine raw resources true
  return .wasm raw resources

def unknownContractCode (codeID : String) : GoError :=
  { sentinel := some .unknownContractCode, text := Sentinel.unknownContractCode.text ++ " " ++ quote codeID }

/-- `contractFor`, with nothing cached. -/
def contractFor [Primitives] (engine : Engine) (codeID : String) : Native Contract :=
  match registry codeID with
  | some (.wasm code resources) => do
    ensureWASMInvocationBudget resources
    return .wasm code resources
  | some contract => return contract
  | none => do
    let code ← Action.read fun s => s.store.contractCode codeID
    let code ← require code (unknownContractCode codeID)
    uploadedContract engine codeID code

/-- `contractAddress`. -/
def contractAddress [Primitives] (creator codeID seed : String) : String :=
  String.ofList ('0' :: 'x' :: ((hexEncode (Primitives.keccak (utf8Bytes
    (runes (toLower creator ++ "|" ++ codeID ++ "|" ++ seed)))).val).drop 24))

/-- `Deploy` of a native contract. -/
def Contract.deploy (engine : Engine) (ctx : Context) (args : Fields) : Contract → Native (List Event)
  | .account => AccountContract.deploy ctx args
  | .multisig => MultisigContract.deploy ctx args
  | .counter => CounterContract.deploy ctx args
  | .token => TokenContract.deploy ctx args
  | .wasm code resources => callGuest (engine.guest code .deploy) resources ctx args

/-- `Call` of a contract. -/
def Contract.call (engine : Engine) (ctx : Context) (method : String) (args : Fields) :
    Contract → Native (List Event)
  | .account => AccountContract.call ctx method args
  | .multisig => MultisigContract.call ctx method args
  | .counter => CounterContract.call ctx method args
  | .token => TokenContract.call ctx method args
  | .wasm code resources =>
    if method ≠ "set" then Action.fail (newError ("unknown wasm echo method " ++ quote method))
    else callGuest (engine.guest code .call) resources ctx args

/-- Native contracts pay for their inputs and events; a WebAssembly contract pays in fuel. -/
def Contract.isNative : Contract → Bool
  | .wasm _ _ => false
  | _ => true

/-- The body of `DeployMeteredInTransaction`. -/
def deployContract [Primitives] (engine : Engine) (creator codeID seed : String) (args : Fields) :
    Native (String × List Event) := do
  let contract ← contractFor engine codeID
  let address := contractAddress creator codeID seed
  if contract.isNative then
    chargeNativeInvocation "deploy" args
    chargeNativeLinear nativeAccountWriteGas nativeStorageWriteByteGas [len codeID]
  Action.modify fun s => { s with store := s.store.setCodeID address codeID }
  let events ← contract.deploy engine { address, caller := toLower creator } args
  let deployed : Event := { type := "contract.deployed", attributes := GoMap.ofList [
    ("address", address), ("code_id", codeID), ("creator", toLower creator)] }
  if contract.isNative then
    chargeNativeEvents (deployed :: events)
  return (address, deployed :: events)

/-- The body of `CallMeteredInTransaction` after its first check. -/
def callContract [Primitives] (engine : Engine) (codeID address caller method : String) (args : Fields) :
    Native (List Event) := do
  let contract ← (contractFor engine codeID).mapError fun err =>
    if err.sentinel = some .unknownContractCode
      then wrapError .contractStateFault "persisted unknown contract code id" else err
  if contract.isNative then
    chargeNativeInvocation method args
  let events ← contract.call engine { address := toLower address, caller := toLower caller } method args
  if contract.isNative then
    chargeNativeEvents events
  return events

/-- The gas an invocation used, and its store and results if it succeeded. -/
def outcomeOf {α : Type} : Result α × Invocation → UInt64 × Result (Store × α)
  | (.ok a, s) => (s.meter.gasUsed, .ok (s.store, a))
  | (.error err, s) => (s.meter.gasUsed, .error err)

/-- `DeployMeteredInTransaction`. -/
def deployMeteredInTransaction [Primitives] (engine : Engine) (store : Store) (creator codeID seed : String)
    (args : Fields) (gasLimit : UInt64) : UInt64 × Result (Store × String × List Event) :=
  outcomeOf (deployContract engine creator codeID seed args { store, meter := { gasLimit } })

/-- `CallMeteredInTransaction`. -/
def callMeteredInTransaction [Primitives] (engine : Engine) (store : Store) (address caller method : String)
    (args : Fields) (gasLimit : UInt64) : UInt64 × Result (Store × List Event) :=
  if store.codeID address = "" then (0, .error (newError "target account is not a contract"))
  else outcomeOf (callContract engine (store.codeID address) address caller method args
    { store, meter := { gasLimit } })

/-- The runtime over an engine. -/
def runtime [Primitives] (engine : Engine) : Core.Runtime where
  deployMeteredInTransaction := deployMeteredInTransaction engine
  callMeteredInTransaction := callMeteredInTransaction engine
  validateAndCacheWasmCode := validateAndCacheWasmCode engine

end ChainLab.Contracts
