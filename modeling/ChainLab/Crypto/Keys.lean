import ChainLab.Types.Errors
import ChainLab.Types.Validator

/-! Hashing, signature recovery and address normalisation. -/

namespace ChainLab.Crypto

open ChainLab.Lib ChainLab.Types

/-- A 32-byte hash value. -/
abbrev Digest := { bytes : List UInt8 // bytes.length = 32 }

/-- What the chain takes from other libraries: the hash functions, public-key recovery and parsing
(returning the 64 bytes of an uncompressed key), and `encoding/json`'s decoder. Nothing is assumed
about them here. -/
class Primitives where
  keccak : List UInt8 → Digest
  recoverCompact : (signature : List UInt8) → (digest : Digest) → Option (List UInt8)
  parsePubKey : List UInt8 → Option (List UInt8)
  sha256 : List UInt8 → List UInt8
  ripemd160 : List UInt8 → List UInt8
  decodeAdmission : String → Except String RuntimeValidatorAdmissionCertificate

/-- `hash.KeccakHex`. -/
def keccakHex [Primitives] (data : List UInt8) : String :=
  String.ofList ('0' :: 'x' :: hexEncode (Primitives.keccak data).val)

/-- `NormalizeAddress`. -/
def normalizeAddress (encoded : String) : Result String :=
  let address := toLower (trimSpace encoded)
  if len address ≠ 42 ∨ !hasPrefix address "0x" then .error (sentinelError .invalidAddress)
  else match hexDecode ((runes address).drop 2) with
    | none => .error (sentinelError .invalidAddress)
    | some raw =>
      if raw.length ≠ 20 then .error (sentinelError .invalidAddress)
      else if raw.any (· ≠ 0) then .ok address
      else .error (sentinelError .zeroAddress)

/-- The text is the address that `normalizeAddress` returns for it. -/
def IsCanonicalAddress (address : String) : Prop := normalizeAddress address = .ok address

instance (address : String) : Decidable (IsCanonicalAddress address) :=
  inferInstanceAs (Decidable (normalizeAddress address = .ok address))

/-- `addressFromPublicKey`: the last 20 bytes of the key's hash. -/
def addressFromPublicKey [Primitives] (uncompressed : List UInt8) : String :=
  String.ofList ('0' :: 'x' :: hexEncode ((Primitives.keccak uncompressed).val.drop 12))

/-- `AddressFromCompressedPublicKey`. -/
def addressFromCompressedPublicKey [Primitives] (encoded : List UInt8) : Option String :=
  match Primitives.parsePubKey encoded with
  | none => none
  | some publicKey => if encoded.length ≠ 33 then none else some (addressFromPublicKey publicKey)

/-- `RecoverDigestAddress`. -/
def recoverDigestAddress [Primitives] (digest : Digest) (signatureHex : String) : Option String :=
  match hexDecode (runes (trimPrefix signatureHex "0x")) with
  | none => none
  | some bytes =>
    if bytes.length ≠ 65 then none else (Primitives.recoverCompact bytes digest).map addressFromPublicKey

/-- `VerifyDigest`. -/
def verifyDigest [Primitives] (address : String) (digest : Digest) (signatureHex : String) : Bool :=
  recoverDigestAddress digest signatureHex = some (toLower address)

/-- `Verify`. -/
def verify [Primitives] (address : String) (message : List UInt8) (signatureHex : String) : Bool :=
  verifyDigest address (Primitives.keccak message) signatureHex

theorem normalizeAddress_eq_ok {encoded address : String} (h : normalizeAddress encoded = .ok address) :
    address = toLower (trimSpace encoded) := by
  simp only [normalizeAddress] at h
  split_ifs at h
  split at h
  · cases h
  · split_ifs at h
    exact (Except.ok.inj h).symm

theorem IsCanonicalAddress.lower {address : String} (h : IsCanonicalAddress address) :
    toLower (trimSpace address) = address :=
  (normalizeAddress_eq_ok h).symm

/-- Primitives under which there is one hash value and one key, so that every signature is that key's. -/
@[reducible] def constantPrimitives : Primitives where
  keccak _ := ⟨List.replicate 32 1, rfl⟩
  recoverCompact _ _ := some (List.replicate 64 1)
  parsePubKey _ := some (List.replicate 64 1)
  sha256 _ := List.replicate 32 1
  ripemd160 _ := List.replicate 20 1
  decodeAdmission _ := .error "unsupported certificate"

/-- The address of the only key of `constantPrimitives`. -/
def constantKeyAddress : String := "0x0101010101010101010101010101010101010101"

/-- A text of the form of a canonical signature. -/
def constantSignature : String := String.ofList ('0' :: 'x' :: '1' :: 'b' :: List.replicate 128 '0')

end ChainLab.Crypto
