import ChainLab.Crypto.Keys
import ChainLab.Lib.Bytes
import ChainLab.Lib.GoMap
import ChainLab.Lib.Json

/-! The authenticated state map: a tree of 256 levels kept as a map of its nodes, cloned by stacking
overlays, and the proofs it gives out. -/

namespace ChainLab.Proof

open ChainLab.Lib ChainLab.Types ChainLab.Crypto

def maxDomainBytes : Nat := 64

def sparseProtocol : String := "chainlab-sparse-merkle-proof-v1"
def domainSparseState : String := "chainlab-state-v2"

def sparseDepth : Nat := 256
def maxSparseKey : Nat := 2048
def maxSparseValue : Nat := 16 * 1024 * 1024

def stringBytes (s : String) : List UInt8 := utf8Bytes (runes s)

theorem stringBytes_injective : Function.Injective stringBytes := by
  intro s t h
  simp only [stringBytes, runes_eq] at h
  exact String.toList_inj.mp (utf8Bytes_injective h)

/-- The bytes a domain may hold: lower-case letters, digits and four marks. -/
def domainByte (b : UInt8) : Bool :=
  (97 ≤ b && b ≤ 122) || (48 ≤ b && b ≤ 57) || b = 45 || b = 95 || b = 46 || b = 47

/-- `validateDomain`. -/
def validateDomain (domain : String) : Result Unit := do
  refuseIf ((stringBytes domain).length = 0 ∨ (stringBytes domain).length > maxDomainBytes)
    (newError "proof domain must contain between 1 and 64 bytes")
  refuseIf (∃ b ∈ stringBytes domain, domainByte b = false) (newError "proof domain is not canonical ASCII")

/-- `validateSparseKey`. -/
def validateSparseKey (key : String) : Result Unit := do
  refuseIf ((stringBytes key).length = 0 ∨ (stringBytes key).length > maxSparseKey)
    (newError "sparse key must contain between 1 and 2048 bytes")
  refuseIf (∃ b ∈ stringBytes key, b < 0x21 ∨ b > 0x7e) (newError "sparse key is not canonical visible ASCII")

/-! ### Hashes -/

/-- What `sparsePath` hashes. -/
def sparsePathEncoding (domain key : String) : List UInt8 :=
  0x10 :: UInt8.ofNat (stringBytes domain).length :: (stringBytes domain ++
    bigEndianBytes 4 (stringBytes key).length ++ stringBytes key)

/-- What `sparseEmptyLeafHash` hashes. -/
def sparseEmptyLeafEncoding (domain : String) : List UInt8 :=
  0x11 :: UInt8.ofNat (stringBytes domain).length :: stringBytes domain

/-- What `sparseLeafHash` hashes. -/
def sparseLeafEncoding (domain : String) (path : Digest) (key : String) (value : List UInt8) : List UInt8 :=
  0x12 :: UInt8.ofNat (stringBytes domain).length :: (stringBytes domain ++ path.val ++
    bigEndianBytes 4 (stringBytes key).length ++ stringBytes key ++ bigEndianBytes 8 value.length ++ value)

/-- What `sparseBranchHash` hashes. -/
def sparseBranchEncoding (domain : String) (depth : Nat) (left right : Digest) : List UInt8 :=
  0x13 :: UInt8.ofNat (stringBytes domain).length :: (stringBytes domain ++ bigEndianBytes 2 depth ++
    left.val ++ right.val)

section Hashes

variable [Primitives]

/-- `sparsePath`. -/
def sparsePath (domain key : String) : Digest := Primitives.keccak (sparsePathEncoding domain key)

/-- `sparseEmptyLeafHash`. -/
def sparseEmptyLeafHash (domain : String) : Digest := Primitives.keccak (sparseEmptyLeafEncoding domain)

/-- `sparseLeafHash`. -/
def sparseLeafHash (domain : String) (path : Digest) (key : String) (value : List UInt8) : Digest :=
  Primitives.keccak (sparseLeafEncoding domain path key value)

/-- `sparseBranchHash`. -/
def sparseBranchHash (domain : String) (depth : Nat) (left right : Digest) : Digest :=
  Primitives.keccak (sparseBranchEncoding domain depth left right)

/-- The empty digest of a subtree, by its height. -/
def sparseDefaultOfHeight (domain : String) : Nat → Digest
  | 0 => sparseEmptyLeafHash domain
  | height + 1 =>
    let child := sparseDefaultOfHeight domain height
    sparseBranchHash domain (sparseDepth - (height + 1)) child child

/-- `sparseDefaults`, and the table `NewSparseTree` fills. -/
def sparseDefaults (domain : String) (depth : Nat) : Digest := sparseDefaultOfHeight domain (sparseDepth - depth)

end Hashes

/-! ### Paths and node keys -/

structure SparseNodeKey where
  depth : Nat
  bits : List UInt8
  deriving DecidableEq

/-- `sparseNodeKeyAtDepth`: the bits from `depth` on are cleared. -/
def sparseNodeKeyAtDepth (path : List UInt8) (depth : Nat) : SparseNodeKey :=
  if depth < sparseDepth then
    let byteIndex := depth / 8
    let remaining := depth % 8
    if remaining = 0 then
      { depth, bits := path.mapIdx fun index b => if index ≥ byteIndex then 0 else b }
    else
      { depth, bits := path.mapIdx fun index b =>
          if index = byteIndex then b &&& (0xff <<< UInt8.ofNat (8 - remaining))
          else if index ≥ byteIndex + 1 then 0 else b }
  else { depth, bits := path }

/-- `sparseSiblingNodeKey`. -/
def sparseSiblingNodeKey (path : List UInt8) (parentDepth : Nat) : SparseNodeKey :=
  let sibling := updateByte path (parentDepth / 8) (· ^^^ (1 <<< UInt8.ofNat (7 - parentDepth % 8)))
  sparseNodeKeyAtDepth sibling (parentDepth + 1)

/-- `sparsePathBit`. -/
def sparsePathBit (path : List UInt8) (depth : Nat) : UInt8 :=
  (path.getD (depth / 8) 0 >>> UInt8.ofNat (7 - depth % 8)) &&& 1

/-- `setSparseBitmapBit`. -/
def setSparseBitmapBit (bitmap : List UInt8) (level : Nat) : List UInt8 :=
  updateByte bitmap (level / 8) (· ||| (1 <<< UInt8.ofNat (7 - level % 8)))

/-- `sparseBitmapBit`. -/
def sparseBitmapBit (bitmap : List UInt8) (level : Nat) : Bool :=
  bitmap.getD (level / 8) 0 &&& (1 <<< UInt8.ofNat (7 - level % 8)) ≠ 0

/-- `sparseEncodeDigest`. -/
def sparseEncodeDigest (value : Digest) : String := String.ofList ('0' :: 'x' :: hexEncode value.val)

/-- `sparseDecodeDigest`. -/
def sparseDecodeDigest (value : String) : Result Digest := do
  refuseIf ((stringBytes value).length ≠ 66 ∨ !hasPrefix value "0x")
    (newError "digest must be a canonical 32-byte hex value")
  let malformed := newError "digest must be lowercase canonical hex"
  let decoded ← require (hexDecode ((runes value).drop 2)) malformed
  if h : decoded.length = 32 then
    refuseIf (sparseEncodeDigest ⟨decoded, h⟩ ≠ value) malformed
    return ⟨decoded, h⟩
  else .error malformed

/-! ### Trees -/

structure SparseLeaf where
  key : String
  value : List UInt8
  deriving DecidableEq

/-- One `SparseTree` object: a base tree, or an overlay over the tree it was cloned from. -/
structure SparseTree where
  parent : Option Nat := none
  nodes : GoMap SparseNodeKey Digest := ∅
  deletedNodes : Finset SparseNodeKey := ∅
  leaves : GoMap Digest SparseLeaf := ∅
  deletedLeaves : Finset Digest := ∅
  entryCount : Int := 0

namespace SparseTree

/-- What a tree itself says about a node: a value, a tombstone, or nothing. -/
def ownNode (key : SparseNodeKey) (t : SparseTree) : Option (Option Digest) :=
  match t.nodes.lookup key with
  | some value => some (some value)
  | none => if key ∈ t.deletedNodes then some none else none

/-- What a tree itself says about a leaf. -/
def ownLeaf (path : Digest) (t : SparseTree) : Option (Option SparseLeaf) :=
  match t.leaves.lookup path with
  | some leaf => some (some leaf)
  | none => if path ∈ t.deletedLeaves then some none else none

/-- `setNode`. -/
def setNode (key : SparseNodeKey) (value : Digest) (t : SparseTree) : SparseTree :=
  { t with nodes := t.nodes.insert key value, deletedNodes := t.deletedNodes.erase key }

/-- `deleteNode`: a base tree keeps no tombstones. -/
def deleteNode (key : SparseNodeKey) (t : SparseTree) : SparseTree :=
  { t with
    nodes := t.nodes.erase key
    deletedNodes := if t.parent = none then t.deletedNodes else insert key t.deletedNodes }

/-- `t.leaves[path] = leaf`, with the tombstone dropped. -/
def setLeaf (path : Digest) (leaf : SparseLeaf) (t : SparseTree) : SparseTree :=
  { t with leaves := t.leaves.insert path leaf, deletedLeaves := t.deletedLeaves.erase path }

/-- `deleteLeaf`. -/
def deleteLeaf (path : Digest) (t : SparseTree) : SparseTree :=
  { t with
    leaves := t.leaves.erase path
    deletedLeaves := if t.parent = none then t.deletedLeaves else insert path t.deletedLeaves }

def addEntries (count : Int) (t : SparseTree) : SparseTree := { t with entryCount := t.entryCount + count }

/-- What `Publish` does to the base tree for one overlay `t`. -/
def merge (t base : SparseTree) : SparseTree :=
  { base with
    nodes := t.nodes ∪ GoMap.filterKeys (fun key => key ∉ t.deletedNodes) base.nodes
    leaves := t.leaves ∪ GoMap.filterKeys (fun path => path ∉ t.deletedLeaves) base.leaves
    entryCount := t.entryCount }

end SparseTree

/-- The tree objects of one domain, newest first. An object's number is how many are older than it, and
its parent is one of those. -/
structure SparseHeap where
  domain : String
  objects : List SparseTree

/-- Ask an object, then the trees it was cloned from. -/
def resolve {α : Type} (own : SparseTree → Option (Option α)) : List SparseTree → Nat → Option α
  | [], _ => none
  | t :: older, id =>
    if id = older.length then
      match own t with
      | some answer => answer
      | none => t.parent.bind fun parent => resolve own older parent
    else resolve own older id

/-- Write to one object. -/
def updateObject (f : SparseTree → SparseTree) : List SparseTree → Nat → List SparseTree
  | [], _ => []
  | t :: older, id => if id = older.length then f t :: older else t :: updateObject f older id

/-- The object of a number. -/
def object : List SparseTree → Nat → SparseTree
  | [], _ => {}
  | t :: older, id => if id = older.length then t else object older id

/-- An object and the trees below it, the base tree last. -/
def ancestors : List SparseTree → Nat → List Nat
  | [], _ => []
  | t :: older, id =>
    if id = older.length then id :: (t.parent.elim [] fun parent => ancestors older parent)
    else ancestors older id

namespace SparseHeap

variable (h : SparseHeap) (id : Nat)

def update (f : SparseTree → SparseTree) : SparseHeap := { h with objects := updateObject f h.objects id }

/-- `node`. -/
def node (key : SparseNodeKey) : Option Digest := resolve (SparseTree.ownNode key) h.objects id

/-- `leaf`. -/
def leaf (path : Digest) : Option SparseLeaf := resolve (SparseTree.ownLeaf path) h.objects id

/-- `EntryCount`. -/
def entryCount : Int := (object h.objects id).entryCount

/-- `Clone`: the new object's number is the count of the older ones. -/
def clone : SparseHeap :=
  { h with objects := { parent := some id, entryCount := h.entryCount id } :: h.objects }

/-- `Publish`, for the overlays between an object and its base, newest first. -/
def publishInto (base : Nat) (h : SparseHeap) : List Nat → SparseHeap
  | [] => h
  | t :: below =>
    let published := publishInto base h below
    published.update base (SparseTree.merge (object published.objects t))

/-- The base tree of an object. -/
def baseOf : Nat := (ancestors h.objects id).getLastD id

/-- `Publish`: the base tree holds the result. -/
def publish : SparseHeap := publishInto (h.baseOf id) h (ancestors h.objects id).dropLast

variable [Primitives]

/-- A node's digest: absent nodes are empty subtrees. -/
def nodeDigest (key : SparseNodeKey) : Digest := (h.node id key).getD (sparseDefaults h.domain key.depth)

/-- `Root`. -/
def root : String :=
  sparseEncodeDigest (h.nodeDigest id { depth := 0, bits := List.replicate 32 0 })

/-- `recalculatePath`, from depth `depth - 1` up to the root. -/
def recalculatePath (id : Nat) (path : Digest) : Nat → SparseHeap → Digest → SparseHeap
  | 0, h, _ => h
  | depth + 1, h, current =>
    let sibling := (h.node id (sparseSiblingNodeKey path.val depth)).getD (sparseDefaults h.domain (depth + 1))
    let next :=
      if sparsePathBit path.val depth = 0 then sparseBranchHash h.domain depth current sibling
      else sparseBranchHash h.domain depth sibling current
    let key := sparseNodeKeyAtDepth path.val depth
    let written :=
      if next = sparseDefaults h.domain depth then h.update id (SparseTree.deleteNode key)
      else h.update id (SparseTree.setNode key next)
    recalculatePath id path depth written next

/-- `Set`. -/
def set (key : String) (value : List UInt8) : Result SparseHeap := do
  validateSparseKey key
  refuseIf (value.length = 0 ∨ value.length > maxSparseValue)
    (newError "sparse value must contain between 1 and 16777216 bytes")
  let path := sparsePath h.domain key
  let existing := h.leaf id path
  refuseIf (∃ leaf ∈ existing, leaf.key ≠ key) (newError "sparse key hash collision")
  if existing.map SparseLeaf.value = some value then return h
  else
    let counted := if existing = none then h.update id (SparseTree.addEntries 1) else h
    let current := sparseLeafHash h.domain path key value
    let written := (counted.update id (SparseTree.setLeaf path { key, value })).update id
      (SparseTree.setNode (sparseNodeKeyAtDepth path.val sparseDepth) current)
    return recalculatePath id path sparseDepth written current

/-- `Delete`. -/
def delete (key : String) : Result SparseHeap := do
  validateSparseKey key
  let path := sparsePath h.domain key
  let existing := h.leaf id path
  if existing = none then return h
  else
    refuseIf (∃ leaf ∈ existing, leaf.key ≠ key) (newError "sparse key hash collision")
    let removed := (((h.update id (SparseTree.deleteLeaf path)).update id (SparseTree.addEntries (-1))).update id
      (SparseTree.deleteNode (sparseNodeKeyAtDepth path.val sparseDepth)))
    return recalculatePath id path sparseDepth removed (sparseDefaults h.domain sparseDepth)

/-- `Get`. -/
def get (key : String) : Result (Option (List UInt8)) := do
  validateSparseKey key
  let existing := h.leaf id (sparsePath h.domain key)
  refuseIf (∃ leaf ∈ existing, leaf.key ≠ key) (newError "sparse key hash collision")
  return existing.map SparseLeaf.value

end SparseHeap

/-- `NewSparseTree`. -/
def newSparseTree (domain : String) : Result SparseHeap := do
  validateDomain domain
  return { domain, objects := [{}] }

/-- `BuildSparseTree`, for one order of the entries. -/
def buildSparseTree [Primitives] (domain : String) (entries : List (String × List UInt8)) : Result SparseHeap := do
  let tree ← newSparseTree domain
  entries.foldlM (fun (h : SparseHeap) entry => h.set 0 entry.1 entry.2) tree

/-! ### Proofs -/

structure SparseProof where
  protocol : String
  domain : String
  key : String
  keyExists : Bool
  value : String := ""
  bitmap : String
  siblings : List String

/-- One round of the loop of `Prove`. -/
def SparseHeap.proveLevel [Primitives] (h : SparseHeap) (id : Nat) (path : Digest)
    (built : List UInt8 × List String) (level : Nat) : List UInt8 × List String :=
  let depth := sparseDepth - 1 - level
  let sibling := (h.node id (sparseSiblingNodeKey path.val depth)).getD (sparseDefaults h.domain (depth + 1))
  if sibling ≠ sparseDefaults h.domain (depth + 1) then
    (setSparseBitmapBit built.1 level, built.2 ++ [sparseEncodeDigest sibling])
  else built

/-- `Prove`. -/
def SparseHeap.prove [Primitives] (h : SparseHeap) (id : Nat) (key : String) : Result SparseProof := do
  validateSparseKey key
  let path := sparsePath h.domain key
  let existing := h.leaf id path
  refuseIf (∃ leaf ∈ existing, leaf.key ≠ key) (newError "sparse key hash collision")
  let built := (List.range sparseDepth).foldl (h.proveLevel id path) (List.replicate (sparseDepth / 8) 0, [])
  return {
    protocol := sparseProtocol, domain := h.domain, key, keyExists := existing.isSome
    value := existing.elim "" fun leaf => String.ofList (base64Encode leaf.value)
    bitmap := String.ofList (base64Encode built.1), siblings := built.2 }

/-- The loop of `VerifySparse`, from depth `depth - 1` up to the root. A set bit without a sibling left
cannot happen, since their counts are compared first. -/
def verifyPath [Primitives] (domain : String) (path : Digest) (bitmap : List UInt8) :
    Nat → List String → Digest → Result Digest
  | 0, _, current => .ok current
  | depth + 1, siblings, current =>
    let join := fun sibling =>
      if sparsePathBit path.val depth = 0 then sparseBranchHash domain depth current sibling
      else sparseBranchHash domain depth sibling current
    if sparseBitmapBit bitmap (sparseDepth - 1 - depth) then
      match siblings with
      | [] => .error (newError "index out of range")
      | text :: rest => do
        let sibling ← (sparseDecodeDigest text).mapError (GoError.annotate "sparse proof sibling: ")
        verifyPath domain path bitmap depth rest (join sibling)
    else verifyPath domain path bitmap depth siblings (join (sparseDefaults domain (depth + 1)))

/-- The value a membership proof carries. -/
def proofLeaf (proof : SparseProof) : Result (List UInt8) := do
  let malformed := newError "sparse proof value is not canonical base64url"
  let leaf ← require (base64Decode proof.value.toList) malformed
  refuseIf (leaf.length = 0 ∨ leaf.length > maxSparseValue ∨ String.ofList (base64Encode leaf) ≠ proof.value)
    malformed
  return leaf

/-- The part of `VerifySparse` that reads the claimed answer: the value, or none. -/
def proofAnswer (proof : SparseProof) : Result (Option (List UInt8)) :=
  if proof.keyExists then do
    let leaf ← proofLeaf proof
    return some leaf
  else do
    refuseIf (proof.value ≠ "") (newError "sparse non-membership proof must not contain a value")
    return none

/-- The digest a proof starts from. -/
def answerDigest [Primitives] (domain key : String) (answer : Option (List UInt8)) : Digest :=
  answer.elim (sparseDefaults domain sparseDepth) fun value =>
    sparseLeafHash domain (sparsePath domain key) key value

/-- `VerifySparse`. -/
def verifySparse [Primitives] (expectedRoot : String) (proof : SparseProof) : Result (Option (List UInt8)) := do
  refuseIf (proof.protocol ≠ sparseProtocol)
    (newError ("unsupported sparse proof protocol " ++ quote proof.protocol))
  validateDomain proof.domain
  validateSparseKey proof.key
  let malformed := newError "sparse proof bitmap is not canonical"
  let bitmap ← require (base64Decode proof.bitmap.toList) malformed
  refuseIf (bitmap.length ≠ sparseDepth / 8 ∨ String.ofList (base64Encode bitmap) ≠ proof.bitmap) malformed
  refuseIf (proof.siblings.length ≠ (bitmap.map onesCount).sum ∨ proof.siblings.length > sparseDepth)
    (newError "sparse proof sibling count is invalid")
  let answer ← proofAnswer proof
  let current ← verifyPath proof.domain (sparsePath proof.domain proof.key) bitmap sparseDepth proof.siblings
    (answerDigest proof.domain proof.key answer)
  let expected ← (sparseDecodeDigest expectedRoot).mapError (GoError.annotate "expected sparse root: ")
  refuseIf (current ≠ expected) (newError "sparse proof does not match expected root")
  return answer

end ChainLab.Proof
