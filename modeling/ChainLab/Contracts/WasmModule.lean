import ChainLab.Contracts.Limits
import ChainLab.Types.Schema

/-! The version-1 policy on uploaded WebAssembly modules: the envelope of a binary, section by section,
and the direct-call graph of its functions. -/

namespace ChainLab.Contracts

open ChainLab.Lib ChainLab.Types

def wasmHostModule : String := "chainlab"
def wasmMaxMemoryPages : UInt32 := 256
def wasmMaxTableElements : UInt32 := 1024
def wasmMaxTypes : UInt32 := 1024
def wasmMaxFunctions : UInt32 := 4096
def wasmMaxGlobals : UInt32 := 256
def wasmMaxSegments : UInt32 := 256
def wasmMaxParams : UInt32 := 64
def wasmMaxResults : UInt32 := 1
def wasmMaxLocalsPerFunction : Nat := 1024
def wasmMaxLocalsPerModule : Nat := 16 * 1024
def maxWASMCallDepth : UInt32 := 64

/-- `wasmModuleResources`. -/
structure WasmModuleResources where
  codeBytes : UInt64
  memoryPages : UInt64 := 0
  tableElements : UInt64 := 0
  deriving DecidableEq

/-- `wasmBinarySignature`. -/
structure WasmBinarySignature where
  params : List UInt8 := []
  results : List UInt8 := []
  deriving DecidableEq

/-- The host functions and their parameter counts; every parameter and the one result is an `i32`. -/
def wasmHostSignatures : List (String × Nat) :=
  [("arg_copy", 3), ("storage_copy", 3), ("storage_set", 4), ("return_set", 2), ("emit_event", 6)]

/-- `wasmHostBinarySignature`. -/
def wasmHostBinarySignature (name : String) : WasmBinarySignature :=
  match wasmHostSignatures.lookup name with
  | some params => { params := List.replicate params 0x7f, results := [0x7f] }
  | none => {}

/-! ### Readers -/

/-- A read from the bytes that are left. -/
abbrev SectionReader (α : Type) := List UInt8 → Option (α × List UInt8)

/-- `readByte`. -/
def readByte : SectionReader UInt8
  | [] => none
  | b :: rest => some (b, rest)

/-- `readBytes`. -/
def readBytes (length : UInt32) : SectionReader (List UInt8) := fun data =>
  if length.toNat > data.length then none else some (data.take length.toNat, data.drop length.toNat)

/-- The rounds of `readU32` that are left, with the value read so far. -/
def readU32From : Nat → UInt32 → UInt32 → SectionReader UInt32
  | 0, _, _, _ => none
  | rounds + 1, result, shift, data => do
    let (b, rest) ← readByte data
    if rounds = 0 ∧ b &&& 0xf0 ≠ 0 then none
    else
      let result := result ||| (b &&& 0x7f).toUInt32 <<< shift
      if b &&& 0x80 = 0 then some (result, rest) else readU32From rounds result (shift + 7) rest

/-- `readU32`. -/
def readU32 : SectionReader UInt32 := readU32From 5 0 0

/-- `readName`, as the bytes of the name. -/
def readName : SectionReader (List UInt8) := fun data => do
  let (length, rest) ← readU32 data
  readBytes length rest

/-- `readLimitBounds`: the minimum, and the maximum if there is one. -/
def readLimitBounds : SectionReader (UInt32 × Option UInt32) := fun data => do
  let (flag, rest) ← readByte data
  let (minimum, rest) ← readU32 rest
  if flag = 0 then some ((minimum, none), rest)
  else if flag = 1 then do
    let (maximum, rest) ← readU32 rest
    some ((minimum, some maximum), rest)
  else none

/-- The rounds of `readSignedLEB` that are left; the last byte must be sign extended. -/
def readSignedLEBFrom (bitWidth : Nat) : Nat → Nat → List UInt8 → Option (List UInt8)
  | 0, _, _ => none
  | rounds + 1, byteIndex, data => do
    let (value, rest) ← readByte data
    if value &&& 0x80 ≠ 0 then readSignedLEBFrom bitWidth rounds (byteIndex + 1) rest
    else if rounds ≠ 0 then some rest
    else
      let usedBits := bitWidth - byteIndex * 7
      let unusedMask : UInt8 := (UInt8.ofNat (2 ^ usedBits - 1)).complement &&& 0x7f
      let payload := value &&& 0x7f
      let signBit : UInt8 := UInt8.ofNat (2 ^ (usedBits - 1))
      if payload &&& signBit = 0 ∧ payload &&& unusedMask ≠ 0 then none
      else if payload &&& signBit ≠ 0 ∧ payload &&& unusedMask ≠ unusedMask then none
      else some rest

/-- `readSignedLEB`. -/
def readSignedLEB (bitWidth : Nat) (data : List UInt8) : Option (List UInt8) :=
  readSignedLEBFrom bitWidth ((bitWidth + 6) / 7) 0 data

/-- Read `count` numbers and drop them. -/
def skipU32s : Nat → List UInt8 → Option (List UInt8)
  | 0, data => some data
  | count + 1, data => do
    let (_, rest) ← readU32 data
    skipU32s count rest

/-- `readU32Vector`: the labels of a branch table and its default. -/
def readU32Vector (data : List UInt8) : Option (List UInt8) := do
  let (count, rest) ← readU32 data
  if count.toNat + 1 > rest.length then none else skipU32s (count.toNat + 1) rest

/-- `readValueTypeVector`. -/
def readValueTypeVector (data : List UInt8) : Option (List UInt8) := do
  let (count, rest) ← readU32 data
  if count.toNat > rest.length then none
  else if (rest.take count.toNat).all fun t => t ∈ [0x7f, 0x7e, 0x7d, 0x7c, 0x70, 0x6f]
    then some (rest.drop count.toNat) else none

/-! ### Direct calls -/

/-- An opcode as the two digits of `0x%02x`. -/
def opcodeText (opcode : UInt8) : String := String.ofList ('0' :: 'x' :: hexEncode [opcode])

/-- `invalidWasmInstructionImmediate`. -/
def invalidWasmInstructionImmediate (opcode : UInt8) : GoError :=
  newError ("invalid immediate for wasm opcode " ++ opcodeText opcode)

/-- `readAllowedMiscInstruction`. -/
def readAllowedMiscInstruction (data : List UInt8) : Result (List UInt8) := do
  let (opcode, rest) ← require (readU32 data) (invalidWasmInstructionImmediate 0xfc)
  if opcode ≤ 0x07 then return rest
  else if 0x0f ≤ opcode ∧ opcode ≤ 0x11 then
    let (_, rest) ← require (readU32 rest) (invalidWasmInstructionImmediate 0xfc)
    return rest
  else .error (newError ("wasm miscellaneous opcode 0xfc/" ++ itoa opcode.toNat ++ " is not allowed in version 1"))

/-- What follows an opcode: a call's target, if it is one, and the bytes after the immediates. -/
def parseWasmInstruction (opcode : UInt8) (data : List UInt8) : Result (Option UInt32 × List UInt8) :=
  let invalid := invalidWasmInstructionImmediate opcode
  let skipping := fun (rest : Option (List UInt8)) =>
    (do return (none, ← require rest invalid) : Result (Option UInt32 × List UInt8))
  if opcode ∈ [0x00, 0x01, 0x05, 0x0b, 0x0f, 0x1a, 0x1b, 0xd1] then .ok (none, data)
  else if 0x45 ≤ opcode ∧ opcode ≤ 0xc4 then .ok (none, data)
  else if opcode ∈ [0x02, 0x03, 0x04] then skipping (readSignedLEB 33 data)
  else if opcode = 0x0c ∨ opcode = 0x0d ∨ (0x20 ≤ opcode ∧ opcode ≤ 0x26) then skipping (skipU32s 1 data)
  else if opcode = 0x0e then skipping (readU32Vector data)
  else if opcode = 0x10 then do
    let (functionIndex, rest) ← require (readU32 data) invalid
    return (some functionIndex, rest)
  else if opcode = 0x11 then .error (newError "wasm call_indirect is forbidden in version 1")
  else if 0x12 ≤ opcode ∧ opcode ≤ 0x15 then
    .error (newError "wasm tail and function-reference calls are forbidden in version 1")
  else if opcode = 0x1c then skipping (readValueTypeVector data)
  else if 0x28 ≤ opcode ∧ opcode ≤ 0x3e then skipping (skipU32s 2 data)
  else if opcode = 0x3f ∨ opcode = 0x40 then skipping (skipU32s 1 data)
  else if opcode = 0x41 then skipping (readSignedLEB 32 data)
  else if opcode = 0x42 then skipping (readSignedLEB 64 data)
  else if opcode = 0x43 then skipping ((readBytes 4 data).map Prod.snd)
  else if opcode = 0x44 then skipping ((readBytes 8 data).map Prod.snd)
  else if opcode = 0xd0 then skipping (readSignedLEB 33 data)
  else if opcode = 0xd2 then skipping (skipU32s 1 data)
  else if opcode = 0xfc then do return (none, ← readAllowedMiscInstruction data)
  else .error (newError ("wasm opcode " ++ opcodeText opcode ++ " is not allowed in version 1"))

/-- The instruction loop; each round consumes at least its opcode, so the length of the body bounds the
rounds. -/
def parseDirectCallsFrom : Nat → List UInt8 → List UInt32 → Result (List UInt32)
  | _, [], directCalls => .ok directCalls
  | 0, _ :: _, _ => .error (newError "invalid wasm instruction")
  | rounds + 1, opcode :: rest, directCalls => do
    let (target, rest) ← parseWasmInstruction opcode rest
    parseDirectCallsFrom rounds rest (directCalls ++ target.toList)

/-- `parseWasmDirectCalls`. -/
def parseWasmDirectCalls (instructions : List UInt8) : Result (List UInt32) :=
  parseDirectCallsFrom instructions.length instructions []

/-! ### The envelope -/

/-- `wasmBinaryPolicy`. -/
structure WasmBinaryPolicy where
  types : List WasmBinarySignature := []
  importedFunctionTypes : List UInt32 := []
  functionTypes : List UInt32 := []
  codeBodies : List (List UInt8) := []
  seenImports : List (List UInt8) := []
  seenExports : List (List UInt8) := []
  seenSections : List UInt8 := []
  requiredExports : List String := []
  lastSectionID : UInt8 := 0
  functionCount : UInt32 := 0
  codeBodyCount : UInt32 := 0
  memoryDefined : Bool := false
  memoryExported : Bool := false

/-- A name as `%q` of its bytes. -/
def quoteBytes (name : List UInt8) : String := quote (String.ofList (name.map fun b => Char.ofNat b.toNat))

/-- A vector's items, one after the other. -/
def readItems {σ : Type} (item : σ → List UInt8 → Result (σ × List UInt8)) :
    Nat → σ → List UInt8 → Result (σ × List UInt8)
  | 0, state, data => .ok (state, data)
  | count + 1, state, data => do
    let (state, rest) ← item state data
    readItems item count state rest

/-- A section that is a vector: a bounded count, the items, and nothing after them. -/
def validateWasmVector {σ : Type} (section_ : List UInt8) (count : UInt32 → Bool) (bound trailing : String)
    (state : UInt32 → σ) (item : σ → List UInt8 → Result (σ × List UInt8)) : Result σ := do
  let (items, rest) ← require (readU32 section_) (newError bound)
  refuseIf (!count items) (newError bound)
  let (final, rest) ← readItems item items.toNat (state items) rest
  refuseIf (rest ≠ []) (newError trailing)
  return final

/-- `validateWasmVectorCount`. -/
def validateWasmVectorCount (section_ : List UInt8) (maximum : UInt32) (name : String) : Result Unit := do
  let (count, _) ← require (readU32 section_) (newError ("invalid wasm " ++ name ++ " section"))
  refuseIf (count > maximum) (newError ("wasm " ++ name ++ " exceed the version-1 limit"))

/-- One entry of the type section. -/
def validateWasmType (policy : WasmBinaryPolicy) (data : List UInt8) :
    Result (WasmBinaryPolicy × List UInt8) := do
  let (form, rest) ← require (readByte data) (newError "invalid wasm function type")
  refuseIf (form ≠ 0x60) (newError "invalid wasm function type")
  let tooManyParams := newError "wasm function parameters exceed the version-1 limit"
  let (params, rest) ← require (readU32 rest) tooManyParams
  refuseIf (params > wasmMaxParams) tooManyParams
  let (paramTypes, rest) ← require (readBytes params rest) (newError "invalid wasm function parameters")
  let tooManyResults := newError "wasm function results exceed the version-1 limit"
  let (results, rest) ← require (readU32 rest) tooManyResults
  refuseIf (results > wasmMaxResults) tooManyResults
  let (resultTypes, rest) ← require (readBytes results rest) (newError "invalid wasm function results")
  return ({ policy with types := policy.types ++ [{ params := paramTypes, results := resultTypes }] }, rest)

/-- `validateWasmTypeSection`. -/
def validateWasmTypeSection (section_ : List UInt8) (policy : WasmBinaryPolicy) : Result WasmBinaryPolicy :=
  validateWasmVector section_ (· ≤ wasmMaxTypes) "wasm types exceed the version-1 limit"
    "wasm type section has trailing data" (fun _ => policy) validateWasmType

/-- One entry of the import section. -/
def validateWasmImport (policy : WasmBinaryPolicy) (data : List UInt8) :
    Result (WasmBinaryPolicy × List UInt8) := do
  let foreign := newError "wasm imports must use the chainlab module"
  let (moduleName, rest) ← require (readName data) foreign
  refuseIf (moduleName ≠ utf8Bytes wasmHostModule.toList) foreign
  let (name, rest) ← require (readName rest) (newError "invalid wasm import name")
  let about := fun text => newError ("wasm import " ++ quoteBytes name ++ text)
  let host ← require (wasmHostSignatures.find? fun entry => utf8Bytes entry.1.toList = name) (about " is not allowed")
  refuseIf (name ∈ policy.seenImports) (about " is duplicated")
  let (kind, rest) ← require (readByte rest) (about " must be a function")
  refuseIf (kind ≠ 0) (about " must be a function")
  let (typeIndex, rest) ← require (readU32 rest) (about " has an invalid type")
  let signature ← require (policy.types[typeIndex.toNat]?) (about " has an invalid type")
  refuseIf (signature ≠ wasmHostBinarySignature host.1) (about " has an invalid signature")
  return ({ policy with
    seenImports := name :: policy.seenImports
    importedFunctionTypes := policy.importedFunctionTypes ++ [typeIndex] }, rest)

/-- `validateWasmImportSection`. -/
def validateWasmImportSection (section_ : List UInt8) (policy : WasmBinaryPolicy) : Result WasmBinaryPolicy :=
  validateWasmVector section_ (fun count => count.toNat ≤ wasmHostSignatures.length)
    "wasm imports exceed the version-1 limit" "wasm import section has trailing data" (fun _ => policy)
    validateWasmImport

/-- One entry of the function section. -/
def validateWasmFunction (policy : WasmBinaryPolicy) (data : List UInt8) :
    Result (WasmBinaryPolicy × List UInt8) := do
  let (typeIndex, rest) ← require (readU32 data) (newError "wasm function has an invalid type")
  refuseIf (typeIndex.toNat ≥ policy.types.length) (newError "wasm function has an invalid type")
  return ({ policy with functionTypes := policy.functionTypes ++ [typeIndex] }, rest)

/-- `validateWasmFunctionSection`. -/
def validateWasmFunctionSection (section_ : List UInt8) (policy : WasmBinaryPolicy) :
    Result WasmBinaryPolicy :=
  validateWasmVector section_ (· ≤ wasmMaxFunctions) "wasm functions exceed the version-1 limit"
    "wasm function section has trailing data"
    (fun count => { policy with functionTypes := [], functionCount := count }) validateWasmFunction

/-- One entry of the table section. -/
def validateWasmTable (resources : WasmModuleResources) (data : List UInt8) :
    Result (WasmModuleResources × List UInt8) := do
  let (elementType, rest) ← require (readByte data) (newError "wasm table element type is not allowed")
  refuseIf (elementType ≠ 0x70) (newError "wasm table element type is not allowed")
  let unfixed := newError "wasm table must declare a fixed version-1 size"
  let ((minimum, maximum), rest) ← require (readLimitBounds rest) unfixed
  let maximum ← require maximum unfixed
  refuseIf (minimum ≠ maximum) unfixed
  refuseIf (maximum > wasmMaxTableElements) (newError "wasm table exceeds the version-1 limit")
  return ({ resources with tableElements := maximum.toUInt64 }, rest)

/-- `validateWasmTableSection`. -/
def validateWasmTableSection (section_ : List UInt8) (resources : WasmModuleResources) :
    Result WasmModuleResources :=
  validateWasmVector section_ (· ≤ 1) "wasm tables exceed the version-1 limit"
    "wasm table section has trailing data" (fun _ => resources) validateWasmTable

/-- `validateWasmMemorySection`. -/
def validateWasmMemorySection (section_ : List UInt8) (policy : WasmBinaryPolicy)
    (resources : WasmModuleResources) : Result (WasmBinaryPolicy × WasmModuleResources) := do
  let single := newError "wasm must define exactly one memory"
  let (count, rest) ← require (readU32 section_) single
  refuseIf (count ≠ 1) single
  let unfixed := newError "wasm memory must declare a fixed version-1 size"
  let ((minimum, maximum), rest) ← require (readLimitBounds rest) unfixed
  let maximum ← require maximum unfixed
  refuseIf (minimum = 0 ∨ minimum ≠ maximum ∨ maximum > wasmMaxMemoryPages) unfixed
  refuseIf (rest ≠ []) (newError "wasm memory section has trailing data")
  return ({ policy with memoryDefined := true }, { resources with memoryPages := maximum.toUInt64 })

/-- `functionSignature`. -/
def WasmBinaryPolicy.functionSignature (policy : WasmBinaryPolicy) (functionIndex : UInt32) :
    Option WasmBinarySignature := do
  let typeIndex ← (policy.importedFunctionTypes ++ policy.functionTypes)[functionIndex.toNat]?
  policy.types[typeIndex.toNat]?

/-- One entry of the export section. -/
def validateWasmExport (policy : WasmBinaryPolicy) (data : List UInt8) :
    Result (WasmBinaryPolicy × List UInt8) := do
  let (name, rest) ← require (readName data) (newError "invalid wasm export name")
  let about := fun text => newError ("wasm export " ++ quoteBytes name ++ text)
  refuseIf (name ∈ policy.seenExports) (about " is duplicated")
  let policy := { policy with seenExports := name :: policy.seenExports }
  let (kind, rest) ← require (readByte rest) (newError "invalid wasm export kind")
  let (exportIndex, rest) ← require (readU32 rest) (newError "invalid wasm export index")
  if name = utf8Bytes "memory".toList then
    refuseIf (kind ≠ 0x02 ∨ exportIndex ≠ 0 ∨ !policy.memoryDefined ∨ policy.memoryExported)
      (newError "wasm must export its single memory")
    return ({ policy with memoryExported := true }, rest)
  else
    let required ← require (["deploy", "call", "read"].find? fun entry => utf8Bytes entry.toList = name)
      (about " is not allowed")
    refuseIf (kind ≠ 0) (about " is not allowed")
    refuseIf (policy.functionSignature exportIndex ≠ some {}) (about " must have signature () -> ()")
    return ({ policy with requiredExports := required :: policy.requiredExports }, rest)

/-- `validateWasmExportSection`. -/
def validateWasmExportSection (section_ : List UInt8) (policy : WasmBinaryPolicy) : Result WasmBinaryPolicy :=
  validateWasmVector section_ (· ≤ 4) "wasm exports exceed the version-1 limit"
    "wasm export section has trailing data" (fun _ => policy) validateWasmExport

/-- One group of locals of a function body, on the locals counted so far. -/
def validateWasmLocals (functionLocals : Nat) (data : List UInt8) : Result (Nat × List UInt8) := do
  let (localCount, rest) ← require (readU32 data) (newError "invalid wasm local declaration")
  let (_, rest) ← require (readByte rest) (newError "invalid wasm local type")
  refuseIf (functionLocals + localCount.toNat > wasmMaxLocalsPerFunction)
    (newError "wasm locals exceed the per-function limit")
  return (functionLocals + localCount.toNat, rest)

/-- One body of the code section, with the locals of the bodies before it. -/
def validateWasmBody (state : WasmBinaryPolicy × Nat) (data : List UInt8) :
    Result ((WasmBinaryPolicy × Nat) × List UInt8) := do
  let (policy, moduleLocals) := state
  let (bodySize, rest) ← require (readU32 data) (newError "invalid wasm code body size")
  let (body, rest) ← require (readBytes bodySize rest) (newError "invalid wasm code body")
  let tooMany := newError "wasm local groups exceed the version-1 limit"
  let (localGroups, bodyRest) ← require (readU32 body) tooMany
  refuseIf (localGroups.toNat > wasmMaxLocalsPerFunction) tooMany
  let (functionLocals, instructions) ← readItems validateWasmLocals localGroups.toNat 0 bodyRest
  refuseIf (moduleLocals + functionLocals > wasmMaxLocalsPerModule)
    (newError "wasm locals exceed the module limit")
  return (({ policy with codeBodies := policy.codeBodies ++ [instructions] }, moduleLocals + functionLocals), rest)

/-- `validateWasmCodeSection`. -/
def validateWasmCodeSection (section_ : List UInt8) (policy : WasmBinaryPolicy) : Result WasmBinaryPolicy := do
  let (policy, _) ← validateWasmVector section_ (· ≤ wasmMaxFunctions)
    "wasm code bodies exceed the version-1 limit" "wasm code section has trailing data"
    (fun count => ({ policy with codeBodyCount := count, codeBodies := [] }, 0)) validateWasmBody
  return policy

/-- `validateComplete`. -/
def WasmBinaryPolicy.validateComplete (policy : WasmBinaryPolicy) : Result Unit := do
  refuseIf (!policy.memoryDefined ∨ !policy.memoryExported) (newError "wasm memory export is required")
  ["deploy", "call", "read"].forM fun name =>
    refuseIf (name ∉ policy.requiredExports) (newError ("wasm export " ++ quote name ++ " is required"))
  refuseIf (policy.functionCount ≠ policy.codeBodyCount)
    (newError "wasm function and code body counts differ")

/-- The checks on the id of a section that is not a custom one. -/
def validateWasmSectionID (sectionID : UInt8) (policy : WasmBinaryPolicy) : Result WasmBinaryPolicy := do
  let about := fun text => newError ("wasm section id " ++ itoa sectionID.toNat ++ text)
  refuseIf (sectionID > 12) (about " is not allowed")
  refuseIf (sectionID = 8) (newError "wasm start section is forbidden")
  refuseIf (sectionID = 12) (newError "wasm data-count section requires forbidden bulk memory")
  refuseIf (sectionID ∈ policy.seenSections) (about " is duplicated")
  refuseIf (sectionID < policy.lastSectionID) (about " is out of order")
  return { policy with seenSections := sectionID :: policy.seenSections, lastSectionID := sectionID }

/-- The section switch of `validateWasmEnvelopeWithPolicy`. -/
def validateWasmSection (sectionID : UInt8) (section_ : List UInt8) (policy : WasmBinaryPolicy)
    (resources : WasmModuleResources) : Result (WasmBinaryPolicy × WasmModuleResources) := do
  let policy ← (if sectionID = 0 then .ok policy else validateWasmSectionID sectionID policy)
  if sectionID = 1 then return (← validateWasmTypeSection section_ policy, resources)
  else if sectionID = 2 then return (← validateWasmImportSection section_ policy, resources)
  else if sectionID = 3 then return (← validateWasmFunctionSection section_ policy, resources)
  else if sectionID = 4 then return (policy, ← validateWasmTableSection section_ resources)
  else if sectionID = 5 then validateWasmMemorySection section_ policy resources
  else if sectionID = 6 then
    validateWasmVectorCount section_ wasmMaxGlobals "globals"
    return (policy, resources)
  else if sectionID = 7 then return (← validateWasmExportSection section_ policy, resources)
  else if sectionID = 9 ∨ sectionID = 11 then
    validateWasmVectorCount section_ wasmMaxSegments "segments"
    return (policy, resources)
  else if sectionID = 10 then return (← validateWasmCodeSection section_ policy, resources)
  else return (policy, resources)

/-- The section loop; each round consumes at least the section's id, so the length bounds the rounds. -/
def validateWasmSections : Nat → List UInt8 → WasmBinaryPolicy → WasmModuleResources →
    Result (WasmBinaryPolicy × WasmModuleResources)
  | _, [], policy, resources => .ok (policy, resources)
  | 0, _ :: _, _, _ => .error (newError "invalid wasm section bounds")
  | rounds + 1, sectionID :: data, policy, resources => do
    let (sectionSize, rest) ← require (readU32 data) (newError "invalid wasm section size")
    let (section_, rest) ← require (readBytes sectionSize rest) (newError "invalid wasm section bounds")
    let (policy, resources) ← validateWasmSection sectionID section_ policy resources
    validateWasmSections rounds rest policy resources

/-- `validateWasmEnvelopeWithPolicy`: the policy of an accepted module and the resources it declares. -/
def validateWasmEnvelopeWithPolicy (code : List UInt8) (resources : WasmModuleResources) :
    Result (WasmBinaryPolicy × WasmModuleResources) := do
  refuseIf (code.take 8 ≠ [0x00, 0x61, 0x73, 0x6d, 0x01, 0x00, 0x00, 0x00])
    (newError "invalid wasm bytecode header")
  let (policy, resources) ← validateWasmSections code.length (code.drop 8) {} resources
  policy.validateComplete
  return (policy, resources)

/-- `validateWasmEnvelope`. -/
def validateWasmEnvelope (code : List UInt8) (resources : WasmModuleResources) : Result WasmModuleResources := do
  let (_, resources) ← validateWasmEnvelopeWithPolicy code resources
  return resources

/-! ### The call graph -/

inductive CallState where
  | unvisited | visiting | visited
  deriving DecidableEq, Inhabited

/-- `callFrame`. -/
structure CallFrame where
  functionIndex : Nat
  nextCall : Nat := 0

/-- The search of `validateDirectCallGraph`: the colours, the depths of finished functions, and the stack
with its top first. -/
structure CallSearch where
  states : List CallState
  depths : List UInt32
  stack : List CallFrame := []

/-- The depth of a function whose callees are all finished. -/
def callDepth (depths : List UInt32) (calls : List UInt32) : Result UInt32 :=
  calls.foldlM (fun depth target => do
    let targetDepth := depths.getD target.toNat 0
    refuseIf (targetDepth ≥ maxWASMCallDepth)
      (newError "wasm direct call depth exceeds the version-1 limit of 64")
    return if targetDepth + 1 > depth then targetDepth + 1 else depth) 1

/-- A round at a frame with a call left: skip a finished callee, descend into a new one. -/
def CallSearch.descend (search : CallSearch) (frame : CallFrame) (below : List CallFrame) (target : Nat) :
    Result CallSearch :=
  let advanced := { frame with nextCall := frame.nextCall + 1 } :: below
  match search.states.getD target .unvisited with
  | .visiting => .error (newError "wasm direct call graph contains recursion")
  | .visited => .ok { search with stack := advanced }
  | .unvisited => .ok { search with
      states := search.states.set target .visiting
      stack := { functionIndex := target } :: advanced }

/-- A round at a frame with no call left: its function is finished. -/
def CallSearch.finish (search : CallSearch) (frame : CallFrame) (below : List CallFrame)
    (calls : List UInt32) : Result CallSearch := do
  let depth ← callDepth search.depths calls
  return {
    states := search.states.set frame.functionIndex .visited
    depths := search.depths.set frame.functionIndex depth
    stack := below }

/-- The rounds of the search until its stack is empty. A function's calls are gone through once and a
function is finished once, so the sizes of the graph bound the rounds. -/
def CallSearch.run (graph : List (List UInt32)) : Nat → CallSearch → Result CallSearch
  | rounds, search =>
    match search.stack, rounds with
    | [], _ => .ok search
    | _ :: _, 0 => .error (newError "wasm direct call graph search did not finish")
    | frame :: below, rounds + 1 => do
      let calls := graph.getD frame.functionIndex []
      let next ← (match calls[frame.nextCall]? with
        | some target => search.descend frame below target.toNat
        | none => search.finish frame below calls)
      CallSearch.run graph rounds next

/-- One root of the search. -/
def CallSearch.visit (graph : List (List UInt32)) (search : CallSearch) (root : Nat) : Result CallSearch :=
  if search.states.getD root .unvisited = .visited then .ok search
  else CallSearch.run graph (graph.flatten.length + graph.length) { search with
    states := search.states.set root .visiting
    stack := [{ functionIndex := root }] }

/-- The calls of every function: imports call nothing, and every target exists. -/
def WasmBinaryPolicy.directCallGraph (policy : WasmBinaryPolicy) : Result (List (List UInt32)) := do
  let importCount := policy.importedFunctionTypes.length
  let totalFunctions := importCount + policy.functionCount.toNat
  refuseIf (policy.codeBodies.length ≠ policy.functionCount.toNat)
    (newError "wasm direct call graph does not match code bodies")
  let defined ← policy.codeBodies.zipIdx.mapM fun entry => do
    let calls ← (parseWasmDirectCalls entry.1).mapError
      (GoError.annotate ("wasm function " ++ itoa entry.2 ++ ": "))
    calls.forM fun target => refuseIf (target.toNat ≥ totalFunctions)
      (newError ("wasm direct call target " ++ itoa target.toNat ++ " is out of bounds"))
    return calls
  return List.replicate importCount [] ++ defined

/-- `validateDirectCallGraph`. -/
def WasmBinaryPolicy.validateDirectCallGraph (policy : WasmBinaryPolicy) : Result Unit := do
  let graph ← policy.directCallGraph
  let _ ← (List.range graph.length).foldlM (CallSearch.visit graph) {
    states := List.replicate graph.length .unvisited
    depths := List.replicate graph.length 0 }

end ChainLab.Contracts
