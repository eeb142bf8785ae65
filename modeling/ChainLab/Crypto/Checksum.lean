import ChainLab.Crypto.Keys

/-! A hash and a signature scheme of a few operations, with which runs of the chain are worked out. -/

namespace ChainLab.Crypto

open ChainLab.Lib

/-- Eight bytes that depend on every byte of the data. -/
def checksum (data : List UInt8) : List UInt8 :=
  let sum := data.foldl (fun acc b => (acc * 257 + b.toNat) % 2 ^ 64) 0
  (List.range 8).map fun i => UInt8.ofNat (sum / 256 ^ i)

/-- A hash value is a checksum of the data and the data's first 24 bytes, a public key has 24 bytes, and a signature
ends in the public key of its signer. -/
@[reducible] def checksumPrimitives : Primitives where
  keccak data := ⟨checksum data ++ (data ++ List.replicate 24 0).take 24, by simp [checksum]⟩
  recoverCompact signature _ := some (signature.drop 41)
  parsePubKey encoded := some (encoded.drop 9)
  sha256 data := data
  ripemd160 data := data.drop 13
  decodeAdmission _ := .error "unsupported certificate"

/-- The address of the key with a number. -/
def keyAddress (key : UInt8) : String := String.ofList ('0' :: 'x' :: hexEncode (List.replicate 19 0 ++ [key]))

/-- A signature of the key with a number. -/
def keySignature (key : UInt8) : String := String.ofList ('0' :: 'x' :: hexEncode (27 :: List.replicate 63 0 ++ [key]))

end ChainLab.Crypto
