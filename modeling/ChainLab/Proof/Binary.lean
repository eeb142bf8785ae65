import ChainLab.Lib.MerkleLevels
import ChainLab.Proof.SparseSoundness

/-! Binary Merkle proofs over a list of leaves. The leaves are padded to a power of two; every hash binds
the domain and the number of leaves, and a leaf's hash its index. -/

namespace ChainLab.Proof

open ChainLab.Lib ChainLab.Types ChainLab.Crypto MerkleLevels

def protocol : String := "chainlab-merkle-proof-v1"
def maxProofDepth : Nat := 63
def maxInt : UInt64 := 0x7FFFFFFFFFFFFFFF

/-- `Proof`. -/
structure MerkleProof where
  protocol : String
  domain : String
  index : UInt64
  total : UInt64
  leaf : String
  siblings : List String
  deriving DecidableEq

/-- What `digest` hashes. -/
def digestEncoding (kind : UInt8) (domain : String) (total index : UInt64) (first second : List UInt8) :
    List UInt8 :=
  kind :: UInt8.ofNat (stringBytes domain).length :: (stringBytes domain ++ bigEndianBytes 8 total.toNat ++
    bigEndianBytes 8 index.toNat ++ bigEndianBytes 8 first.length ++ first ++
    bigEndianBytes 8 second.length ++ second)

def emptyEncoding (domain : String) : List UInt8 := digestEncoding 0x03 domain 0 0 [] []

def leafEncoding (domain : String) (total index : UInt64) (leaf : List UInt8) : List UInt8 :=
  digestEncoding 0x00 domain total index leaf []

def paddingEncoding (domain : String) (total index : UInt64) : List UInt8 :=
  digestEncoding 0x02 domain total index [] []

def parentEncoding (domain : String) (total : UInt64) (left right : Digest) : List UInt8 :=
  digestEncoding 0x01 domain total 0 left.val right.val

/-- `encodeDigest`. -/
def encodeDigest (value : Digest) : String := sparseEncodeDigest value

/-- `decodeDigest`. -/
def decodeDigest (value : String) : Result Digest := sparseDecodeDigest value

/-- The doublings of `paddedTreeSize` that are left; a `uint64` allows 64. -/
def paddedTreeSizeFrom (total : UInt64) : Nat → UInt64 → Result UInt64
  | 0, size => .ok size
  | rounds + 1, size =>
    if size < total then do
      refuseIf (size > maxUint64 / 2) (newError "proof leaf count is too large")
      paddedTreeSizeFrom total rounds (size * 2)
    else .ok size

/-- `paddedTreeSize`. -/
def paddedTreeSize (total : UInt64) : Result UInt64 := do
  refuseIf (total = 0) (newError "proof leaf count must be positive")
  paddedTreeSizeFrom total 64 1

/-- The halvings of `proofDepth` that are left. -/
def proofDepthFrom : Nat → UInt64 → Nat
  | 0, _ => 0
  | rounds + 1, size => if size > 1 then proofDepthFrom rounds (size / 2) + 1 else 0

/-- `proofDepth`. -/
def proofDepth (size : UInt64) : Nat := proofDepthFrom 64 size

/-- What `leafLevel` hashes at an index. -/
def levelEncoding (domain : String) (leaves : List (List UInt8)) (index : Nat) : List UInt8 :=
  match leaves[index]? with
  | some leaf => leafEncoding domain (UInt64.ofNat leaves.length) (UInt64.ofNat index) leaf
  | none => paddingEncoding domain (UInt64.ofNat leaves.length) (UInt64.ofNat index)

section Proofs

variable [Primitives]

/-- `emptyHash`. -/
def emptyHash (domain : String) : Digest := Primitives.keccak (emptyEncoding domain)

/-- `leafHash`. -/
def leafHash (domain : String) (total index : UInt64) (leaf : List UInt8) : Digest :=
  Primitives.keccak (leafEncoding domain total index leaf)

/-- `leafLevel`. -/
def leafLevel (domain : String) (leaves : List (List UInt8)) : Result (List Digest) := do
  refuseIf (leaves.length > (maxUint64 / 2).toNat) (newError "proof leaf count is too large")
  let size ← (paddedTreeSize (UInt64.ofNat leaves.length)).mapError fun _ =>
    newError "proof leaf count exceeds platform capacity"
  refuseIf (size > maxInt) (newError "proof leaf count exceeds platform capacity")
  return (List.range size.toNat).map fun index => Primitives.keccak (levelEncoding domain leaves index)

/-- The loop of `Root` over `parentLevel`. -/
def reduceLevels (domain : String) (total : UInt64) (nodes : List Digest) : List Digest :=
  collapse Primitives.keccak (parentEncoding domain total) nodes.length nodes

/-- `Root`. -/
def root (domain : String) (leaves : List (List UInt8)) : Result String := do
  validateDomain domain
  if leaves.length = 0 then return encodeDigest (emptyHash domain)
  else
    let nodes ← leafLevel domain leaves
    return encodeDigest ((reduceLevels domain (UInt64.ofNat leaves.length) nodes).headD (emptyHash domain))

/-- `Build`. -/
def build (domain : String) (leaves : List (List UInt8)) (index : UInt64) : Result MerkleProof := do
  validateDomain domain
  let outside := newError "proof index is outside the leaf set"
  refuseIf (leaves.length = 0 ∨ index.toNat ≥ leaves.length) outside
  let leaf ← require leaves[index.toNat]? outside
  let nodes ← leafLevel domain leaves
  let total := UInt64.ofNat leaves.length
  return {
    protocol, domain, index, total
    leaf := String.ofList (base64Encode leaf)
    siblings := (siblings Primitives.keccak (parentEncoding domain total) nodes.length nodes index.toNat).map
      fun sibling => encodeDigest (sibling.getD (emptyHash domain)) }

/-- `Verify`. -/
def verifyProof (expectedRoot : String) (proof : MerkleProof) : Result (List UInt8) := do
  refuseIf (proof.protocol ≠ protocol) (newError ("unsupported proof protocol " ++ quote proof.protocol))
  validateDomain proof.domain
  refuseIf (proof.total = 0 ∨ proof.index ≥ proof.total) (newError "proof index or total is invalid")
  let treeSize ← paddedTreeSize proof.total
  refuseIf (proof.siblings.length ≠ proofDepth treeSize ∨ proof.siblings.length > maxProofDepth)
    (newError "proof sibling count is invalid")
  let noncanonical := newError "proof leaf is not canonical base64url"
  let leaf ← require (base64Decode proof.leaf.toList) noncanonical
  refuseIf (String.ofList (base64Encode leaf) ≠ proof.leaf) noncanonical
  let expected ← (decodeDigest expectedRoot).mapError (GoError.annotate "expected root: ")
  let siblings ← proof.siblings.mapM fun encoded =>
    (decodeDigest encoded).mapError (GoError.annotate "proof sibling: ")
  refuseIf (climb Primitives.keccak (parentEncoding proof.domain proof.total) siblings proof.index.toNat
      (leafHash proof.domain proof.total proof.index leaf) ≠ expected)
    (newError "proof does not match expected root")
  return leaf

end Proofs

/-! ### Sizes -/

private theorem doubled {size : UInt64} {k : Nat} (hsize : size.toNat = 2 ^ k) (hk : k < 63) :
    (size * 2).toNat = 2 ^ (k + 1) := by
  have hlt : 2 ^ (k + 1) < 2 ^ 64 := Nat.pow_lt_pow_right (by omega) (by omega)
  have htwo : (2 : UInt64).toNat = 2 := rfl
  rw [UInt64.toNat_mul, hsize, htwo, ← Nat.pow_succ, Nat.mod_eq_of_lt hlt]

private theorem half_lt_iff {size : UInt64} {k : Nat} (hsize : size.toNat = 2 ^ k) (hk : k < 64) :
    maxUint64 / 2 < size ↔ k = 63 := by
  have hhalf : (maxUint64 / 2).toNat = 2 ^ 63 - 1 := by decide
  rw [UInt64.lt_iff_toNat_lt, hhalf, hsize]
  constructor
  · intro h
    by_contra hne
    have : 2 ^ k ≤ 2 ^ 62 := Nat.pow_le_pow_right (by omega) (by omega)
    omega
  · rintro rfl
    omega

/-- The padded size is the least power of two that holds the leaves. -/
private theorem paddedTreeSizeFrom_spec (total : UInt64) {size : UInt64} {rounds k : Nat} (hsize : size.toNat = 2 ^ k)
    (hrounds : k + rounds = 64) (hlow : k = 0 ∨ 2 ^ (k - 1) < total.toNat) :
    (2 ^ 63 < total.toNat ∧ ∃ err, paddedTreeSizeFrom total rounds size = .error err) ∨
      ∃ d s, d ≤ 63 ∧ paddedTreeSizeFrom total rounds size = .ok s ∧ s.toNat = 2 ^ d ∧
        total.toNat ≤ 2 ^ d ∧ (d = 0 ∨ 2 ^ (d - 1) < total.toNat) := by
  induction rounds generalizing size k with
  | zero =>
    have := size.toNat_lt
    obtain rfl : k = 64 := by omega
    omega
  | succ rounds ih =>
    rw [paddedTreeSizeFrom]
    by_cases hlt : size < total
    · rw [if_pos hlt]
      rw [UInt64.lt_iff_toNat_lt, hsize] at hlt
      by_cases hk : k = 63
      · left
        subst hk
        refine ⟨hlt, newError "proof leaf count is too large", ?_⟩
        rw [bind_err]
        exact .inl (refuseIf_err.mpr ⟨(half_lt_iff hsize (by omega)).mpr rfl, rfl⟩)
      · have hstep : (do
            refuseIf (size > maxUint64 / 2) (newError "proof leaf count is too large")
            paddedTreeSizeFrom total rounds (size * 2)) = paddedTreeSizeFrom total rounds (size * 2) := by
          rw [refuseIf, if_neg (mt (half_lt_iff hsize (by omega)).mp hk)]
          rfl
        rw [hstep]
        exact ih (doubled hsize (by omega)) (by omega) (.inr hlt)
    · rw [if_neg hlt]
      rw [UInt64.lt_iff_toNat_lt, hsize] at hlt
      exact .inr ⟨k, size, by omega, rfl, hsize, by omega, hlow⟩

private theorem paddedTreeSize_ok {total size : UInt64} (h : paddedTreeSize total = .ok size) :
    ∃ d, d ≤ 63 ∧ size.toNat = 2 ^ d ∧ total.toNat ≤ 2 ^ d ∧ (d = 0 ∨ 2 ^ (d - 1) < total.toNat) := by
  simp only [paddedTreeSize, bind_ok] at h
  obtain ⟨_, -, h⟩ := h
  have hone : (1 : UInt64).toNat = 2 ^ 0 := rfl
  obtain ⟨-, err, herr⟩ | ⟨d, s, hd, hok, hs⟩ := paddedTreeSizeFrom_spec total hone (by omega : 0 + 64 = 64) (.inl rfl)
  · rw [h] at herr
    cases herr
  · rw [h] at hok
    cases hok
    exact ⟨d, hd, hs⟩

private theorem paddedTreeSize_exists {total : UInt64} (hpos : total ≠ 0) (hle : total.toNat ≤ 2 ^ 63) :
    ∃ size, paddedTreeSize total = .ok size := by
  have hone : (1 : UInt64).toNat = 2 ^ 0 := rfl
  obtain ⟨hlt, -⟩ | ⟨d, s, -, hok, -⟩ := paddedTreeSizeFrom_spec total hone (by omega : 0 + 64 = 64) (.inl rfl)
  · omega
  · exact ⟨s, by simp only [paddedTreeSize, bind_ok]; exact ⟨(), refuseIf_ok.mpr hpos, hok⟩⟩

private theorem proofDepthFrom_eq {rounds d : Nat} {size : UInt64} (hsize : size.toNat = 2 ^ d) (hd : d ≤ rounds) :
    proofDepthFrom rounds size = d := by
  induction rounds generalizing d size with
  | zero =>
    obtain rfl : d = 0 := by omega
    rfl
  | succ rounds ih =>
    have hone : (1 : UInt64).toNat = 1 := rfl
    rw [proofDepthFrom]
    cases d with
    | zero =>
      rw [if_neg]
      rw [gt_iff_lt, UInt64.lt_iff_toNat_lt, hsize, hone]
      omega
    | succ d =>
      have hhalf : (size / 2).toNat = 2 ^ d := by
        have htwo : (2 : UInt64).toNat = 2 := rfl
        rw [UInt64.toNat_div, hsize, htwo, Nat.pow_succ]
        omega
      rw [if_pos, ih hhalf (by omega)]
      rw [gt_iff_lt, UInt64.lt_iff_toNat_lt, hsize, hone]
      exact Nat.one_lt_two_pow (by omega)

/-! ### Encodings -/

private theorem uint64_of_bytes {a b : UInt64} (h : bigEndianBytes 8 a.toNat = bigEndianBytes 8 b.toNat) : a = b := by
  have ha : a.toNat < 256 ^ 8 := a.toNat_lt
  have hb : b.toNat < 256 ^ 8 := b.toNat_lt
  exact UInt64.toNat_inj.mp (bigEndianBytes_inj ha hb h)

/-- The tag, the domain and the two numbers of an encoding can be read back. -/
theorem digestEncoding_inj {kind kind' : UInt8} {domain domain' : String} {total total' index index' : UInt64}
    {first first' second second' : List UInt8} (hdomain : validateDomain domain = .ok ())
    (hdomain' : validateDomain domain' = .ok ())
    (h : digestEncoding kind domain total index first second =
      digestEncoding kind' domain' total' index' first' second') :
    kind = kind' ∧ domain = domain' ∧ total = total' ∧ index = index' ∧
      bigEndianBytes 8 first.length ++ (first ++ (bigEndianBytes 8 second.length ++ second)) =
        bigEndianBytes 8 first'.length ++ (first' ++ (bigEndianBytes 8 second'.length ++ second')) := by
  unfold digestEncoding at h
  simp only [List.append_assoc] at h
  obtain ⟨hkind, hsame, hrest⟩ := encoding_domain_inj hdomain hdomain' h
  obtain ⟨htotal, hrest⟩ := List.append_inj hrest (by simp)
  obtain ⟨hindex, hrest⟩ := List.append_inj hrest (by simp)
  exact ⟨hkind, hsame, uint64_of_bytes htotal, uint64_of_bytes hindex, hrest⟩

theorem leafEncoding_inj {domain domain' : String} {total total' index index' : UInt64}
    {leaf leaf' : List UInt8} (hdomain : validateDomain domain = .ok ())
    (hdomain' : validateDomain domain' = .ok ())
    (h : leafEncoding domain total index leaf = leafEncoding domain' total' index' leaf') : leaf = leaf' := by
  obtain ⟨-, -, -, -, hrest⟩ := digestEncoding_inj hdomain hdomain' h
  obtain ⟨-, hrest⟩ := List.append_inj hrest (by simp)
  -- the fixed parts have fixed sizes, so the leaves are equally long
  have hlen : leaf.length = leaf'.length := by
    have := congrArg List.length hrest
    simpa using this
  exact (List.append_inj hrest hlen).1

theorem parentEncoding_inj {domain : String} {total : UInt64} (hdomain : validateDomain domain = .ok ())
    (l r l' r' : Digest) (h : parentEncoding domain total l r = parentEncoding domain total l' r') :
    l = l' ∧ r = r' := by
  obtain ⟨-, -, -, -, hrest⟩ := digestEncoding_inj hdomain hdomain h
  obtain ⟨-, hrest⟩ := List.append_inj hrest (by simp)
  obtain ⟨hl, hrest⟩ := List.append_inj hrest (by rw [l.property, l'.property])
  obtain ⟨-, hr⟩ := List.append_inj hrest (by simp)
  exact ⟨Subtype.ext hl, Subtype.ext hr⟩

/-! ### Completeness -/

section Theorems

variable [Primitives] {domain : String} {leaves : List (List UInt8)}

/-- The leaf level of a tree of height `d`. -/
def levelNodes (domain : String) (leaves : List (List UInt8)) (d : Nat) : List Digest :=
  (List.range (2 ^ d)).map fun index => Primitives.keccak (levelEncoding domain leaves index)

@[simp] theorem length_levelNodes (d : Nat) : (levelNodes domain leaves d).length = 2 ^ d := by
  simp [levelNodes]

omit [Primitives] in
private theorem toNat_length (h : leaves.length ≤ 2 ^ 63) : (UInt64.ofNat leaves.length).toNat = leaves.length := by
  rw [UInt64.toNat_ofNat']
  omega

private theorem leafLevel_ok {nodes : List Digest} (h : leafLevel domain leaves = .ok nodes) :
    leaves.length < 2 ^ 63 ∧ ∃ d size, d ≤ 62 ∧ paddedTreeSize (UInt64.ofNat leaves.length) = .ok size ∧
      size.toNat = 2 ^ d ∧ leaves.length ≤ 2 ^ d ∧ nodes = levelNodes domain leaves d := by
  have hhalf : (maxUint64 / 2).toNat = 2 ^ 63 - 1 := by decide
  have hmax : maxInt.toNat = 2 ^ 63 - 1 := rfl
  simp only [leafLevel, bind_ok, mapError_ok, pure_eq_ok, Except.ok.injEq] at h
  obtain ⟨_, hcount, size, hsize, _, hcap, rfl⟩ := h
  have hcount := refuseIf_ok.mp hcount
  have hcap := refuseIf_ok.mp hcap
  rw [hhalf] at hcount
  obtain ⟨d, hd, hpow, hle, -⟩ := paddedTreeSize_ok hsize
  rw [toNat_length (by omega)] at hle
  rw [gt_iff_lt, UInt64.lt_iff_toNat_lt, hmax, hpow] at hcap
  have hd : d ≤ 62 := by
    by_contra hgt
    have : 2 ^ 63 ≤ 2 ^ d := Nat.pow_le_pow_right (by omega) (by omega)
    omega
  refine ⟨by omega, d, size, hd, hsize, hpow, hle, ?_⟩
  unfold levelNodes
  rw [hpow]

private theorem leafLevel_exists (hne : leaves ≠ []) (hfits : leaves.length ≤ 2 ^ 62) :
    ∃ nodes, leafLevel domain leaves = .ok nodes := by
  have hhalf : (maxUint64 / 2).toNat = 2 ^ 63 - 1 := by decide
  have hmax : maxInt.toNat = 2 ^ 63 - 1 := rfl
  have htotal : (UInt64.ofNat leaves.length).toNat = leaves.length := toNat_length (by omega)
  have hpos : UInt64.ofNat leaves.length ≠ 0 := by
    intro h
    rw [h] at htotal
    exact hne (List.eq_nil_of_length_eq_zero htotal.symm)
  obtain ⟨size, hsize⟩ := paddedTreeSize_exists hpos (by omega)
  obtain ⟨d, hd, hpow, hle, hmin⟩ := paddedTreeSize_ok hsize
  have hd : d ≤ 62 := by
    by_contra hgt
    have : 2 ^ 62 ≤ 2 ^ (d - 1) := Nat.pow_le_pow_right (by omega) (by omega)
    omega
  have hcap : ¬size > maxInt := by
    rw [gt_iff_lt, UInt64.lt_iff_toNat_lt, hmax, hpow]
    have : 2 ^ d ≤ 2 ^ 62 := Nat.pow_le_pow_right (by omega) hd
    omega
  simp only [leafLevel, bind_ok, mapError_ok]
  exact ⟨_, (), refuseIf_ok.mpr (by omega), size, hsize, (), refuseIf_ok.mpr hcap, rfl⟩

/-- The tree over a list of leaves: its height, and the digest at its top. -/
structure TreeOver (domain : String) (leaves : List (List UInt8)) (d : Nat) (top : Digest) : Prop where
  valid : validateDomain domain = .ok ()
  count : leaves.length < 2 ^ 63
  size : ∃ size, paddedTreeSize (UInt64.ofNat leaves.length) = .ok size ∧ size.toNat = 2 ^ d
  height : d ≤ 62
  holds : leaves.length ≤ 2 ^ d
  nodes : leafLevel domain leaves = .ok (levelNodes domain leaves d)
  top : collapse Primitives.keccak (parentEncoding domain (UInt64.ofNat leaves.length)) (2 ^ d)
    (levelNodes domain leaves d) = [top]

namespace TreeOver

variable {d : Nat} {top : Digest}

theorem total (t : TreeOver domain leaves d top) : (UInt64.ofNat leaves.length).toNat = leaves.length :=
  toNat_length t.count.le

theorem of_leafLevel {nodes : List Digest} (hdomain : validateDomain domain = .ok ())
    (h : leafLevel domain leaves = .ok nodes) : ∃ d top, TreeOver domain leaves d top := by
  obtain ⟨hcount, d, size, hd, hsize, hpow, hle, rfl⟩ := leafLevel_ok h
  have hone : (collapse Primitives.keccak (parentEncoding domain (UInt64.ofNat leaves.length)) (2 ^ d)
      (levelNodes domain leaves d)).length = 1 := length_collapse (length_levelNodes d) Nat.lt_two_pow_self.le
  obtain ⟨top, htop⟩ := List.length_eq_one_iff.mp hone
  exact ⟨d, top, hdomain, hcount, ⟨size, hsize, hpow⟩, hd, hle, h, htop⟩

/-- The root of the leaves is the text of the top. -/
theorem root_eq (t : TreeOver domain leaves d top) (hne : leaves ≠ []) :
    root domain leaves = .ok (encodeDigest top) := by
  have hlen : leaves.length ≠ 0 := mt List.eq_nil_of_length_eq_zero hne
  simp only [root, bind_ok]
  refine ⟨(), t.valid, ?_⟩
  rw [if_neg hlen]
  simp only [bind_ok, pure_eq_ok, Except.ok.injEq]
  refine ⟨_, t.nodes, ?_⟩
  rw [reduceLevels, length_levelNodes, t.top]
  rfl

theorem getElem?_levelNodes {index : Nat} (h : index < 2 ^ d) :
    (levelNodes domain leaves d)[index]? = some (Primitives.keccak (levelEncoding domain leaves index)) := by
  simp [levelNodes, h]

end TreeOver

omit [Primitives] in
private theorem mapM_decodeDigest (path : List Digest) :
    (path.map encodeDigest).mapM (fun encoded =>
      (decodeDigest encoded).mapError (GoError.annotate "proof sibling: ")) = .ok path := by
  induction path with
  | nil => rfl
  | cons digest rest ih =>
    have hdecode : decodeDigest (encodeDigest digest) = .ok digest := sparseDecodeDigest_sparseEncodeDigest digest
    rw [List.map_cons, List.mapM_cons, hdecode, ih]
    rfl

/-- A proof built for an index of the leaves verifies against their root, to the leaf at that index. -/
theorem build_verifies {d : Nat} {top : Digest} (t : TreeOver domain leaves d top) {index : UInt64}
    {leaf : List UInt8} (hleaf : leaves[index.toNat]? = some leaf) :
    ∃ proof, build domain leaves index = .ok proof ∧ verifyProof (encodeDigest top) proof = .ok leaf := by
  have hindex : index.toNat < leaves.length := (List.getElem?_eq_some_iff.mp hleaf).1
  have hstart : (levelNodes domain leaves d)[index.toNat]? =
      some (leafHash domain (UInt64.ofNat leaves.length) index leaf) := by
    rw [TreeOver.getElem?_levelNodes (lt_of_lt_of_le hindex t.holds), levelEncoding, hleaf]
    simp [leafHash]
  obtain ⟨path, hlen, hpath, htop⟩ :=
    @climb_siblings _ _ Primitives.keccak (parentEncoding domain (UInt64.ofNat leaves.length)) _ _ _ _ _
      (length_levelNodes d) Nat.lt_two_pow_self.le hstart
  obtain ⟨size, hsize, hpow⟩ := t.size
  refine ⟨{
    protocol, domain, index, total := UInt64.ofNat leaves.length
    leaf := String.ofList (base64Encode leaf)
    siblings := path.map encodeDigest }, ?_, ?_⟩
  · simp only [build, bind_ok, pure_eq_ok, Except.ok.injEq]
    refine ⟨(), t.valid, (), refuseIf_ok.mpr (by omega), leaf, require_ok.mpr hleaf, _, t.nodes, ?_⟩
    rw [length_levelNodes, hpath]
    simp [Function.comp_def]
  · have hclimb : climb Primitives.keccak (parentEncoding domain (UInt64.ofNat leaves.length)) path index.toNat
        (leafHash domain (UInt64.ofNat leaves.length) index leaf) = top := by
      rw [t.top, List.cons.injEq] at htop
      exact htop.1.symm
    have hzero : (0 : UInt64).toNat = 0 := rfl
    have hpositive : ¬(UInt64.ofNat leaves.length = 0 ∨ index ≥ UInt64.ofNat leaves.length) := by
      rw [← UInt64.toNat_inj, ge_iff_le, UInt64.le_iff_toNat_le, t.total, hzero]
      omega
    have hdepth : ¬((path.map encodeDigest).length ≠ proofDepth size ∨
        (path.map encodeDigest).length > maxProofDepth) := by
      have := t.height
      rw [List.length_map, hlen, proofDepth, proofDepthFrom_eq hpow (by omega)]
      unfold maxProofDepth
      omega
    simp only [verifyProof, bind_ok, mapError_ok, pure_eq_ok, Except.ok.injEq]
    refine ⟨(), refuseIf_ok.mpr (by simp), (), t.valid, (), refuseIf_ok.mpr hpositive, size, hsize,
      (), refuseIf_ok.mpr hdepth, leaf, require_ok.mpr ?_, (), refuseIf_ok.mpr (by simp), top,
      sparseDecodeDigest_sparseEncodeDigest top, path, mapM_decodeDigest path, (), refuseIf_ok.mpr ?_, rfl⟩
    · rw [String.toList_ofList]
      exact base64Decode_base64Encode leaf
    · simp [hclimb]

/-! ### Soundness -/

/-- What `Root` hashes. -/
def binaryTreeEncodings (domain : String) (leaves : List (List UInt8)) : List (List UInt8) :=
  if leaves.length = 0 then [emptyEncoding domain]
  else
    let total := UInt64.ofNat leaves.length
    let size := (paddedTreeSize total).toOption.getD 0
    let level := (List.range size.toNat).map (levelEncoding domain leaves)
    level ++ levelEncodings Primitives.keccak (parentEncoding domain total) (proofDepth size)
      (level.map Primitives.keccak)

/-- What `Verify` hashes. -/
def binaryProofEncodings (proof : MerkleProof) : List (List UInt8) :=
  let leaf := (base64Decode proof.leaf.toList).getD []
  let siblings := proof.siblings.filterMap fun encoded => (decodeDigest encoded).toOption
  leafEncoding proof.domain proof.total proof.index leaf ::
    climbEncodings Primitives.keccak (parentEncoding proof.domain proof.total) siblings proof.index.toNat
      (leafHash proof.domain proof.total proof.index leaf)

/-- Every hash of the scheme is taken over an encoding that states a domain and a number of leaves. -/
private def States (domain : String) (total : UInt64) (encoding : List UInt8) : Prop :=
  ∃ kind index first second, encoding = digestEncoding kind domain total index first second

omit [Primitives] in
private theorem states_levelEncoding (domain : String) (leaves : List (List UInt8)) (index : Nat) :
    States domain (UInt64.ofNat leaves.length) (levelEncoding domain leaves index) := by
  unfold levelEncoding
  split
  · exact ⟨_, _, _, _, rfl⟩
  · exact ⟨_, _, _, _, rfl⟩

omit [Primitives] in
private theorem States.inj {domain' : String} {total total' : UInt64} {x : List UInt8}
    (h : States domain total x) (h' : States domain' total' x) (hdomain : validateDomain domain = .ok ())
    (hdomain' : validateDomain domain' = .ok ()) : domain = domain' ∧ total = total' := by
  obtain ⟨kind, index, first, second, rfl⟩ := h
  obtain ⟨kind', index', first', second', heq⟩ := h'
  obtain ⟨-, hsame, htotal, -⟩ := digestEncoding_inj hdomain hdomain' heq
  exact ⟨hsame, htotal⟩

section Tree

variable {d : Nat} {top : Digest}

private theorem binaryTreeEncodings_eq (t : TreeOver domain leaves d top) (hne : leaves ≠ []) :
    binaryTreeEncodings domain leaves = (List.range (2 ^ d)).map (levelEncoding domain leaves) ++
      levelEncodings Primitives.keccak (parentEncoding domain (UInt64.ofNat leaves.length)) d
        (levelNodes domain leaves d) := by
  obtain ⟨size, hsize, hpow⟩ := t.size
  have hheight := t.height
  have hdepth : proofDepth size = d := by
    rw [proofDepth, proofDepthFrom_eq hpow (by omega)]
  unfold binaryTreeEncodings
  rw [if_neg (mt List.eq_nil_of_length_eq_zero hne)]
  simp only [hsize, Except.toOption, Option.getD_some, hpow, hdepth, levelNodes, List.map_map]
  rfl

private theorem mem_binaryTreeEncodings (t : TreeOver domain leaves d top) (hne : leaves ≠ []) {index : Nat}
    (h : index < 2 ^ d) : levelEncoding domain leaves index ∈ binaryTreeEncodings domain leaves := by
  rw [binaryTreeEncodings_eq t hne]
  exact List.mem_append_left _ (List.mem_map_of_mem (List.mem_range.mpr h))

/-- The top is the hash of an encoding that states the tree's domain and number of leaves. -/
private theorem top_states (t : TreeOver domain leaves d top) (hne : leaves ≠ []) :
    ∃ y ∈ binaryTreeEncodings domain leaves,
      States domain (UInt64.ofNat leaves.length) y ∧ Primitives.keccak y = top := by
  cases d with
  | zero =>
    refine ⟨levelEncoding domain leaves 0, mem_binaryTreeEncodings t hne (by simp),
      states_levelEncoding domain leaves 0, ?_⟩
    have htop := t.top
    simpa [collapse, levelNodes] using htop
  | succ d =>
    obtain ⟨l, r, hmem, htop⟩ := @collapse_eq_hash _ _ Primitives.keccak
      (parentEncoding domain (UInt64.ofNat leaves.length)) _ _ (levelNodes domain leaves (d + 1))
      (length_levelNodes (d + 1)) Nat.lt_two_pow_self.le
    refine ⟨parentEncoding domain (UInt64.ofNat leaves.length) l r, ?_, ⟨_, _, _, _, rfl⟩, ?_⟩
    · rw [binaryTreeEncodings_eq t hne]
      exact List.mem_append_right _ hmem
    · rw [t.top, List.cons.injEq] at htop
      exact htop.1.symm

end Tree

omit [Primitives] in
private theorem mapM_decode_ok {texts : List String} {digests : List Digest}
    (h : texts.mapM (fun encoded => (decodeDigest encoded).mapError (GoError.annotate "proof sibling: ")) =
      .ok digests) :
    digests.length = texts.length ∧
      texts.filterMap (fun encoded => (decodeDigest encoded).toOption) = digests := by
  induction texts generalizing digests with
  | nil =>
    cases h
    exact ⟨rfl, rfl⟩
  | cons text rest ih =>
    rw [List.mapM_cons] at h
    simp only [bind_ok, mapError_ok, pure_eq_ok, Except.ok.injEq] at h
    obtain ⟨digest, hdigest, others, hothers, rfl⟩ := h
    obtain ⟨hlen, hfilter⟩ := ih hothers
    refine ⟨by simp [hlen], ?_⟩
    rw [List.filterMap_cons, hdigest, hfilter]
    rfl

/-- What a verifier that accepts has checked. -/
private theorem verifyProof_ok {top : Digest} {proof : MerkleProof} {leaf : List UInt8}
    (h : verifyProof (encodeDigest top) proof = .ok leaf) :
    validateDomain proof.domain = .ok () ∧ proof.index.toNat < proof.total.toNat ∧
      ∃ size path, paddedTreeSize proof.total = .ok size ∧ path.length = proofDepth size ∧
        climb Primitives.keccak (parentEncoding proof.domain proof.total) path proof.index.toNat
          (leafHash proof.domain proof.total proof.index leaf) = top ∧
        binaryProofEncodings proof = leafEncoding proof.domain proof.total proof.index leaf ::
          climbEncodings Primitives.keccak (parentEncoding proof.domain proof.total) path proof.index.toNat
            (leafHash proof.domain proof.total proof.index leaf) := by
  simp only [verifyProof, bind_ok, mapError_ok, pure_eq_ok, Except.ok.injEq] at h
  obtain ⟨_, -, _, hdomain, _, hindex, size, hsize, _, hcount, leaf', hleaf, _, -, expected, hexpected, path, hpath,
    _, hclimb, rfl⟩ := h
  obtain ⟨hlen, hfilter⟩ := mapM_decode_ok hpath
  have hindex := refuseIf_ok.mp hindex
  have hcount := refuseIf_ok.mp hcount
  have hclimb := refuseIf_ok.mp hclimb
  have hdecoded : decodeDigest (encodeDigest top) = .ok top := sparseDecodeDigest_sparseEncodeDigest top
  rw [hdecoded] at hexpected
  cases hexpected
  push Not at hindex hcount hclimb
  refine ⟨hdomain, UInt64.lt_iff_toNat_lt.mp (UInt64.not_le.mp hindex.2), size, path, hsize, by rw [hlen, hcount.1], hclimb, ?_⟩
  unfold binaryProofEncodings
  rw [require_ok.mp hleaf, hfilter]
  rfl

/-- The root a verifier computes is the hash of an encoding that states the proof's domain and total. -/
private theorem climb_states {proof : MerkleProof} {leaf : List UInt8} {path : List Digest} {top : Digest}
    (hclimb : climb Primitives.keccak (parentEncoding proof.domain proof.total) path proof.index.toNat
      (leafHash proof.domain proof.total proof.index leaf) = top)
    (hencodings : binaryProofEncodings proof = leafEncoding proof.domain proof.total proof.index leaf ::
      climbEncodings Primitives.keccak (parentEncoding proof.domain proof.total) path proof.index.toNat
        (leafHash proof.domain proof.total proof.index leaf)) :
    ∃ x ∈ binaryProofEncodings proof, States proof.domain proof.total x ∧ Primitives.keccak x = top := by
  rw [hencodings]
  by_cases hpath : path = []
  · subst hpath
    exact ⟨_, List.mem_cons_self .., ⟨_, _, _, _, rfl⟩, hclimb⟩
  · obtain ⟨l, r, hmem, htop⟩ := @climb_eq_hash _ _ Primitives.keccak (parentEncoding proof.domain proof.total) path
      proof.index.toNat (leafHash proof.domain proof.total proof.index leaf) hpath
    exact ⟨_, List.mem_cons_of_mem _ hmem, ⟨_, _, _, _, rfl⟩, by rw [← htop, hclimb]⟩

/-- A proof accepted against the root of some leaves states one of them at its index, or two encodings
collide. -/
theorem verifyProof_sound {d : Nat} {top : Digest} (t : TreeOver domain leaves d top) (hne : leaves ≠ [])
    {proof : MerkleProof} {leaf : List UInt8} (h : verifyProof (encodeDigest top) proof = .ok leaf) :
    (proof.domain = domain ∧ proof.total.toNat = leaves.length ∧ proof.index.toNat < leaves.length ∧
        leaves[proof.index.toNat]? = some leaf) ∨
      Collision Primitives.keccak (binaryProofEncodings proof) (binaryTreeEncodings domain leaves) := by
  obtain ⟨hdomain, hindex, size, path, hsize, hpath, hclimb, hencodings⟩ := verifyProof_ok h
  obtain ⟨x, hx, hstates, hxtop⟩ := climb_states hclimb hencodings
  obtain ⟨y, hy, hstates', hytop⟩ := top_states t hne
  by_cases hxy : x = y
  · subst hxy
    -- the proof is for this domain and this number of leaves, so it has the tree's height
    obtain ⟨hsame, htotal⟩ := hstates.inj hstates' hdomain t.valid
    obtain ⟨size', hsize', hpow⟩ := t.size
    rw [htotal, hsize'] at hsize
    cases hsize
    have hheight := t.height
    rw [proofDepth, proofDepthFrom_eq hpow (by omega)] at hpath
    rw [htotal, t.total] at hindex
    have hslot : proof.index.toNat < 2 ^ d := lt_of_lt_of_le hindex t.holds
    have htop : collapse Primitives.keccak (parentEncoding domain (UInt64.ofNat leaves.length)) (2 ^ d)
        (levelNodes domain leaves d) =
          [climb Primitives.keccak (parentEncoding domain (UInt64.ofNat leaves.length)) path proof.index.toNat
            (leafHash domain (UInt64.ofNat leaves.length) proof.index leaf)] := by
      rw [t.top, ← hsame, ← htotal, hclimb]
    obtain hnode | hcollision := climb_pins (parentEncoding_inj t.valid) (length_levelNodes d)
      Nat.lt_two_pow_self.le hslot hpath htop
    · rw [TreeOver.getElem?_levelNodes hslot, Option.some.injEq] at hnode
      obtain ⟨own, hown⟩ : ∃ own, leaves[proof.index.toNat]? = some own :=
        ⟨_, List.getElem?_eq_getElem hindex⟩
      by_cases hleaf : leafEncoding proof.domain proof.total proof.index leaf =
          levelEncoding domain leaves proof.index.toNat
      · left
        have hlevel := hleaf
        rw [levelEncoding, hown] at hlevel
        have hleaves := leafEncoding_inj hdomain t.valid hlevel
        subst hleaves
        exact ⟨hsame, by rw [htotal, t.total], hindex, hown⟩
      · right
        refine ⟨_, ?_, _, mem_binaryTreeEncodings t hne hslot, hleaf, ?_⟩
        · rw [hencodings]
          exact List.mem_cons_self ..
        · rw [hnode, leafHash, hsame, htotal]
    · right
      refine hcollision.mono ?_ ?_
      · rw [hencodings, hsame, htotal]
        exact List.subset_cons_self ..
      · rw [binaryTreeEncodings_eq t hne]
        exact List.subset_append_right ..
  · exact .inr ⟨x, hx, y, hy, hxy, hxtop.trans hytop.symm⟩

/-- Against the root of no leaves a proof is only accepted through a collision. -/
private theorem verifyProof_empty {proof : MerkleProof} {leaf : List UInt8} (hdomain : validateDomain domain = .ok ())
    (h : verifyProof (encodeDigest (emptyHash domain)) proof = .ok leaf) :
    Collision Primitives.keccak (binaryProofEncodings proof) (binaryTreeEncodings domain []) := by
  obtain ⟨hproof, hindex, size, path, -, -, hclimb, hencodings⟩ := verifyProof_ok h
  obtain ⟨x, hx, hstates, htop⟩ := climb_states hclimb hencodings
  refine ⟨x, hx, emptyEncoding domain, by simp [binaryTreeEncodings], ?_, htop⟩
  rintro rfl
  have hempty : States domain 0 (emptyEncoding domain) := ⟨_, _, _, _, rfl⟩
  obtain ⟨-, htotal⟩ := hstates.inj hempty hproof hdomain
  rw [htotal] at hindex
  exact absurd hindex (by simp)

/-- Binary Merkle proofs are complete and sound. A Go slice of byte slices never holds more than `2 ^ 62`
entries, since each takes 24 bytes of the address space. -/
theorem merkle_proofs (domain : String) (leaves : List (List UInt8)) (hdomain : validateDomain domain = .ok ()) :
    (leaves ≠ [] → leaves.length ≤ 2 ^ 62 → ∃ expectedRoot, root domain leaves = .ok expectedRoot ∧
      ∀ (index : UInt64) (leaf : List UInt8), leaves[index.toNat]? = some leaf →
        ∃ proof, build domain leaves index = .ok proof ∧ verifyProof expectedRoot proof = .ok leaf) ∧
    ∀ expectedRoot proof leaf, root domain leaves = .ok expectedRoot →
      verifyProof expectedRoot proof = .ok leaf →
        (proof.domain = domain ∧ proof.total.toNat = leaves.length ∧ proof.index.toNat < leaves.length ∧
          leaves[proof.index.toNat]? = some leaf) ∨
        Collision Primitives.keccak (binaryProofEncodings proof) (binaryTreeEncodings domain leaves) := by
  refine ⟨fun hne hfits => ?_, fun expectedRoot proof leaf hroot hverify => ?_⟩
  · obtain ⟨nodes, hnodes⟩ := @leafLevel_exists _ domain _ hne hfits
    obtain ⟨d, top, t⟩ := TreeOver.of_leafLevel hdomain hnodes
    exact ⟨encodeDigest top, t.root_eq hne, fun index leaf hleaf => build_verifies t hleaf⟩
  · by_cases hne : leaves = []
    · subst hne
      simp only [root, bind_ok, List.length_nil, if_true, pure_eq_ok, Except.ok.injEq] at hroot
      obtain ⟨_, -, rfl⟩ := hroot
      exact .inr (verifyProof_empty hdomain hverify)
    · have hroot' := hroot
      simp only [root, bind_ok] at hroot'
      obtain ⟨_, -, hrest⟩ := hroot'
      rw [if_neg (mt List.eq_nil_of_length_eq_zero hne)] at hrest
      simp only [bind_ok] at hrest
      obtain ⟨nodes, hnodes, -⟩ := hrest
      obtain ⟨d, top, t⟩ := TreeOver.of_leafLevel hdomain hnodes
      rw [t.root_eq hne] at hroot
      cases hroot
      exact verifyProof_sound t hne hverify

omit [Primitives] in
/-- The second of three leaves, one place of the tree being padding. -/
theorem merkle_proofs_three :
    letI := constantPrimitives
    ∃ expectedRoot proof, root "transactions" [[1], [2], [3]] = .ok expectedRoot ∧
      build "transactions" [[1], [2], [3]] 1 = .ok proof ∧ verifyProof expectedRoot proof = .ok [2] := by
  let := constantPrimitives
  obtain ⟨hcomplete, -⟩ := merkle_proofs "transactions" [[1], [2], [3]] (by decide)
  obtain ⟨expectedRoot, hroot, hproofs⟩ := hcomplete (by decide) (by decide)
  obtain ⟨proof, hbuild, hverify⟩ := hproofs 1 [2] rfl
  exact ⟨expectedRoot, proof, hroot, hbuild, hverify⟩

end Theorems

end ChainLab.Proof
