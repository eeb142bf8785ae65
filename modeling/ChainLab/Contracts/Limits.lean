import Mathlib

/-! Code identifiers and resource limits of the contract layer. -/

namespace ChainLab.Contracts

def accountCodeID : String := "account.v1"
def multisigCodeID : String := "multisig.v1"
def maxMultisigOwners : Nat := 16
def maxWASMModuleBytes : Nat := 512 * 1024

def nativeInvocationGas : UInt64 := 500
def nativeInputByteGas : UInt64 := 2
def nativeStorageReadBaseGas : UInt64 := 100
def nativeStorageReadByteGas : UInt64 := 1
def nativeStorageWriteBaseGas : UInt64 := 500
def nativeStorageWriteByteGas : UInt64 := 5
def nativeStorageDeleteBaseGas : UInt64 := 300
def nativeStorageDeleteByteGas : UInt64 := 2
def nativeStorageScanEntryGas : UInt64 := 25
def nativeAccountWriteGas : UInt64 := 500
def nativeEventBaseGas : UInt64 := 200
def nativeEventByteGas : UInt64 := 2

def maxNativeArgumentFields : Nat := 64
def maxNativeMethodBytes : Nat := 128
def maxNativeArgumentKeyBytes : Nat := 256
def maxNativeArgumentValueBytes : Nat := 64 * 1024
def maxNativeInputBytes : Nat := 256 * 1024
def maxNativeStorageEntries : Nat := 4096
def maxNativeStorageKeyBytes : Nat := 256
def maxNativeStorageValueBytes : Nat := 64 * 1024
def maxNativeEvents : Nat := 64
def maxNativeEventBytes : Nat := 64 * 1024
def maxNativeEventTypeBytes : Nat := 128
def maxNativeEventAttributes : Nat := 64
def maxNativeEventAttributeKeyBytes : Nat := 256
def maxNativeEventAttributeValueBytes : Nat := 16 * 1024
def maxNativeStorageOperations : Nat := 8192
def maxNativeStorageWrites : Nat := 128
def maxNativeStorageIOBytes : Nat := 1024 * 1024

end ChainLab.Contracts
