import ChainLab.Lib.GoStrings
import ChainLab.Lib.Outcome

/-! Errors: a message, and the sentinel that `errors.Is` finds through the `%w` chain, if any. -/

namespace ChainLab.Types

/-- The package-level error values that callers test for. -/
inductive Sentinel where
  | invalidAddress | zeroAddress
  | storageLimit
  | consensusExecutionFault | governanceDisabled
  | contractStateFault | nativeRuntimeFault | unknownContractCode | contractOutOfGas
  | nativeResourceLimit | readOnlyContract
  | wasmRuntimeFault | wasmGuestTrap | wasmResourceLimit | wasmInvalidUTF8
  deriving DecidableEq, Inhabited

def Sentinel.text : Sentinel → String
  | .invalidAddress => "address must be a 20-byte hex address"
  | .zeroAddress => "address must not be the zero address"
  | .storageLimit => "account storage limit exceeded"
  | .consensusExecutionFault => "consensus execution fault"
  | .governanceDisabled =>
    "governance transactions require finalized voting-power snapshots and unbonding locks and are disabled"
  | .contractStateFault => "contract state invariant violated"
  | .nativeRuntimeFault => "native contract runtime fault"
  | .unknownContractCode => "unknown contract code id"
  | .contractOutOfGas => "contract out of gas"
  | .nativeResourceLimit => "native contract resource limit exceeded"
  | .readOnlyContract => "contract read-only capability violation"
  | .wasmRuntimeFault => "wasm runtime fault"
  | .wasmGuestTrap => "wasm guest trap"
  | .wasmResourceLimit => "wasm resource limit exceeded"
  | .wasmInvalidUTF8 => "wasm host data must be valid UTF-8"

structure GoError where
  sentinel : Option Sentinel := none
  text : String
  deriving DecidableEq, Inhabited

abbrev Result := Except GoError

/-- `errors.New(text)`. -/
def newError (text : String) : GoError := { text }

/-- A sentinel returned as it is. -/
def sentinelError (s : Sentinel) : GoError := { sentinel := some s, text := s.text }

/-- `fmt.Errorf("%w: ...", sentinel)`. -/
def wrapError (s : Sentinel) (text : String) : GoError :=
  { sentinel := some s, text := s.text ++ ": " ++ text }

/-- `fmt.Errorf("... %w", err)`: the cause's sentinel stays visible. -/
def GoError.annotate (text : String) (err : GoError) : GoError :=
  { err with text := text ++ err.text }

/-- `IsFatalExecutionError`. -/
def isFatalExecutionError (err : GoError) : Bool :=
  err.sentinel = some .consensusExecutionFault || err.sentinel = some .wasmRuntimeFault ||
    err.sentinel = some .contractStateFault || err.sentinel = some .nativeRuntimeFault

end ChainLab.Types
