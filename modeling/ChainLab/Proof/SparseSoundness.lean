import ChainLab.Proof.SparseHistory

/-! The proofs a tree gives out verify to its answers, and a proof that verifies against the root of a tree
states the tree's answer unless two encodings of the scheme have one hash. -/

namespace ChainLab.Proof

open ChainLab.Lib ChainLab.Types ChainLab.Crypto

/-! ### Encodings -/

private theorem uint8_ofNat_inj {m n : Nat} (hm : m < 256) (hn : n < 256) (h : UInt8.ofNat m = UInt8.ofNat n) :
    m = n := by
  have := congrArg UInt8.toNat h
  simpa [UInt8.toNat_ofNat', Nat.mod_eq_of_lt hm, Nat.mod_eq_of_lt hn] using this

private theorem length_of_validateDomain {domain : String} (h : validateDomain domain = .ok ()) :
    (stringBytes domain).length < 256 := by
  simp only [validateDomain, bind_ok, maxDomainBytes] at h
  obtain ⟨_, hlength, -⟩ := h
  have := refuseIf_ok.mp hlength
  omega

/-- Every encoding begins with a tag and its domain, from which both can be read back. -/
theorem encoding_domain_inj {tag tag' : UInt8} {domain domain' : String} {rest rest' : List UInt8}
    (hdomain : validateDomain domain = .ok ()) (hdomain' : validateDomain domain' = .ok ())
    (h : tag :: UInt8.ofNat (stringBytes domain).length :: (stringBytes domain ++ rest) =
      tag' :: UInt8.ofNat (stringBytes domain').length :: (stringBytes domain' ++ rest')) :
    tag = tag' ∧ domain = domain' ∧ rest = rest' := by
  simp only [List.cons.injEq] at h
  obtain ⟨htag, hlength, happend⟩ := h
  have hsame := uint8_ofNat_inj (length_of_validateDomain hdomain) (length_of_validateDomain hdomain') hlength
  obtain ⟨hbytes, hrest⟩ := List.append_inj happend hsame
  exact ⟨htag, stringBytes_injective hbytes, hrest⟩

theorem sparseBranchEncoding_inj {domain domain' : String} (hdomain : validateDomain domain = .ok ())
    (hdomain' : validateDomain domain' = .ok ()) (depth : Nat) {l r l' r' : Digest}
    (h : sparseBranchEncoding domain depth l r = sparseBranchEncoding domain' depth l' r') : l = l' ∧ r = r' := by
  unfold sparseBranchEncoding at h
  simp only [List.append_assoc] at h
  obtain ⟨-, -, hrest⟩ := encoding_domain_inj hdomain hdomain' h
  obtain ⟨-, hrest⟩ := List.append_inj hrest (by simp)
  obtain ⟨hl, hr⟩ := List.append_inj hrest (by rw [l.property, l'.property])
  exact ⟨Subtype.ext hl, Subtype.ext hr⟩

theorem length_of_validateSparseKey {key : String} (h : validateSparseKey key = .ok ()) :
    (stringBytes key).length < 256 ^ 4 := by
  simp only [validateSparseKey, bind_ok, maxSparseKey] at h
  obtain ⟨_, hlength, -⟩ := h
  have := refuseIf_ok.mp hlength
  omega

theorem sparseLeafEncoding_inj {domain domain' key key' : String} {path path' : Digest} {value value' : List UInt8}
    (hdomain : validateDomain domain = .ok ()) (hdomain' : validateDomain domain' = .ok ())
    (hkey : validateSparseKey key = .ok ()) (hkey' : validateSparseKey key' = .ok ())
    (h : sparseLeafEncoding domain path key value = sparseLeafEncoding domain' path' key' value') :
    domain = domain' ∧ key = key' ∧ value = value' := by
  unfold sparseLeafEncoding at h
  simp only [List.append_assoc] at h
  obtain ⟨-, hsame, hrest⟩ := encoding_domain_inj hdomain hdomain' h
  obtain ⟨-, hrest⟩ := List.append_inj hrest (by rw [path.property, path'.property])
  obtain ⟨hlength, hrest⟩ := List.append_inj hrest (by simp)
  have hlen := bigEndianBytes_inj (length_of_validateSparseKey hkey) (length_of_validateSparseKey hkey') hlength
  obtain ⟨hbytes, hrest⟩ := List.append_inj hrest hlen
  obtain ⟨-, hvalue⟩ := List.append_inj hrest (by simp)
  exact ⟨hsame, stringBytes_injective hbytes, hvalue⟩

theorem sparsePathEncoding_inj {domain key key' : String}
    (h : sparsePathEncoding domain key = sparsePathEncoding domain key') : key = key' := by
  unfold sparsePathEncoding at h
  simp only [List.append_assoc, List.cons.injEq, true_and] at h
  have hrest := List.append_cancel_left h
  obtain ⟨hlength, hbytes⟩ := List.append_inj hrest (by simp)
  exact stringBytes_injective hbytes

/-- What the digest at the end of a path is the hash of. -/
def answerEncoding [Primitives] (domain : String) (path : Digest) (answer : Option SparseLeaf) : List UInt8 :=
  answer.elim (sparseEmptyLeafEncoding domain) fun leaf => sparseLeafEncoding domain path leaf.key leaf.value

theorem answerEncoding_inj [Primitives] {domain domain' : String} {path path' : Digest}
    {answer answer' : Option SparseLeaf} (hdomain : validateDomain domain = .ok ())
    (hdomain' : validateDomain domain' = .ok ())
    (hkey : ∀ leaf ∈ answer, validateSparseKey leaf.key = .ok ())
    (hkey' : ∀ leaf ∈ answer', validateSparseKey leaf.key = .ok ())
    (h : answerEncoding domain path answer = answerEncoding domain' path' answer') :
    domain = domain' ∧ answer = answer' := by
  have htag : ∀ {d d' : String} {p : Digest} {leaf : SparseLeaf},
      sparseEmptyLeafEncoding d ≠ sparseLeafEncoding d' p leaf.key leaf.value := by
    intro d d' p leaf heq
    unfold sparseEmptyLeafEncoding sparseLeafEncoding at heq
    exact absurd (List.cons.inj heq).1 (by decide)
  cases answer with
  | none =>
    cases answer' with
    | none =>
      have h' : 0x11 :: UInt8.ofNat (stringBytes domain).length :: (stringBytes domain ++ []) =
          0x11 :: UInt8.ofNat (stringBytes domain').length :: (stringBytes domain' ++ []) := by
        rw [List.append_nil, List.append_nil]
        exact h
      exact ⟨(encoding_domain_inj hdomain hdomain' h').2.1, rfl⟩
    | some leaf => exact absurd h htag
  | some leaf =>
    cases answer' with
    | none => exact absurd h.symm htag
    | some leaf' =>
      obtain ⟨hsame, hkeys, hvalues⟩ := sparseLeafEncoding_inj hdomain hdomain' (hkey leaf rfl) (hkey' leaf' rfl) h
      refine ⟨hsame, ?_⟩
      cases leaf
      cases leaf'
      simp_all

/-! ### Texts of digests -/

theorem sparseDecodeDigest_sparseEncodeDigest (d : Digest) : sparseDecodeDigest (sparseEncodeDigest d) = .ok d := by
  have hlist : runes (sparseEncodeDigest d) = '0' :: 'x' :: hexEncode d.val := by simp [sparseEncodeDigest]
  have hlen : (stringBytes (sparseEncodeDigest d)).length = 66 := by
    unfold stringBytes
    rw [hlist, length_utf8Bytes_of_ascii]
    · simp [d.property]
    · simp only [List.mem_cons, forall_eq_or_imp]
      exact ⟨by decide, by decide, hexEncode_ascii d.val⟩
  have hprefix : hasPrefix (sparseEncodeDigest d) "0x" = true := by
    unfold hasPrefix
    rw [hlist]
    rfl
  have hdecode : hexDecode ((runes (sparseEncodeDigest d)).drop 2) = some d.val := by
    rw [hlist]
    exact hexDecode_hexEncode d.val
  simp only [sparseDecodeDigest, bind_ok, refuseIf_ok, require_ok, exists_const]
  refine ⟨by simp [hlen, hprefix], d.val, hdecode, ?_⟩
  rw [dif_pos d.property]
  simp [refuseIf, pure, Except.pure, bind, Except.bind]

/-! ### Siblings -/

/-- The level of the verifier's loop that meets a depth. -/
def levelOf (depth : Nat) : Nat := sparseDepth - 1 - depth

/-- How many siblings the levels below one have used. -/
def siblingsBefore (bitmap : List UInt8) (level : Nat) : Nat := (List.range level).countP (bitAt bitmap)

theorem siblingsBefore_succ (bitmap : List UInt8) (level : Nat) :
    siblingsBefore bitmap (level + 1) = siblingsBefore bitmap level + if bitAt bitmap level then 1 else 0 := by
  unfold siblingsBefore
  rw [List.range_succ, List.countP_append, List.countP_singleton]

/-- The sibling a proof stands for at a depth: the next listed one, or the empty subtree. -/
def proofSibling [Primitives] (domain : String) (bitmap : List UInt8) (siblings : List String) (depth : Nat) : Digest :=
  if bitAt bitmap (levelOf depth) then
    ((sparseDecodeDigest (siblings.getD (siblingsBefore bitmap (levelOf depth)) "")).toOption).getD
      (sparseDefaults domain (depth + 1))
  else sparseDefaults domain (depth + 1)

section Verifier

variable [Primitives] {domain : String} {path : Digest} {bitmap : List UInt8} {siblings : List String}

private theorem join_eq (depth : Nat) (current sibling : Digest) :
    (if sparsePathBit path.val depth = 0 then sparseBranchHash domain depth current sibling
      else sparseBranchHash domain depth sibling current) =
    MerkleMap.join (sparseBranchHash domain) depth (bitAt path.val depth) current sibling := by
  unfold MerkleMap.join
  cases hbit : bitAt path.val depth with
  | false => rw [if_pos ((sparsePathBit_eq_zero _ _).mpr hbit), if_neg Bool.false_ne_true]
  | true =>
    rw [if_neg, if_pos rfl]
    rw [sparsePathBit_eq_zero, hbit]
    decide

/-- The loop of `VerifySparse` climbs with the proof's siblings. It fails only on a sibling that is no digest. -/
theorem verifyPath_eq (domain : String) (path : Digest) (depth : Nat) (hdepth : depth ≤ sparseDepth)
    (hcount : siblingsBefore bitmap sparseDepth ≤ siblings.length) (current : Digest) :
    (∀ root, verifyPath domain path bitmap depth (siblings.drop (siblingsBefore bitmap (sparseDepth - depth)))
        current = .ok root →
      MerkleMap.climb (sparseBranchHash domain) (bitAt path.val) (proofSibling domain bitmap siblings) depth current =
        root) ∧
    ((∀ text ∈ siblings, ∃ d, sparseDecodeDigest text = .ok d) →
      ∃ root, verifyPath domain path bitmap depth (siblings.drop (siblingsBefore bitmap (sparseDepth - depth)))
        current = .ok root) := by
  -- from the root down: the step at the greatest depth comes first
  induction depth generalizing current with
  | zero => exact ⟨fun root h => Except.ok.inj h, fun _ => ⟨current, rfl⟩⟩
  | succ depth ih =>
    have hlevel : sparseDepth - (depth + 1) = levelOf depth := by unfold levelOf; omega
    have hnext : sparseDepth - depth = levelOf depth + 1 := by unfold levelOf; omega
    have ih := ih (by omega)
    rw [hnext, siblingsBefore_succ] at ih
    rw [hlevel]
    simp only [verifyPath]
    rw [show sparseDepth - 1 - depth = levelOf depth from rfl, sparseBitmapBit_eq]
    simp only [join_eq, MerkleMap.climb]
    cases hbit : bitAt bitmap (levelOf depth) with
    | false =>
      have hsibling : proofSibling domain bitmap siblings depth = sparseDefaults domain (depth + 1) := by
        unfold proofSibling
        rw [hbit, if_neg Bool.false_ne_true]
      rw [hbit, if_neg Bool.false_ne_true, Nat.add_zero] at ih
      rw [if_neg Bool.false_ne_true, hsibling]
      exact ih _
    | true =>
      rw [hbit, if_pos rfl] at ih
      have hlt : siblingsBefore bitmap (levelOf depth) < siblings.length := by
        have hmono : siblingsBefore bitmap (levelOf depth + 1) ≤ siblingsBefore bitmap sparseDepth :=
          (List.range_sublist.mpr (by unfold levelOf; omega)).countP_le
        rw [siblingsBefore_succ, hbit, if_pos rfl] at hmono
        omega
      rw [if_pos rfl, List.drop_eq_getElem_cons hlt]
      simp only
      have hsibling : proofSibling domain bitmap siblings depth =
          ((sparseDecodeDigest siblings[siblingsBefore bitmap (levelOf depth)]).toOption).getD
            (sparseDefaults domain (depth + 1)) := by
        unfold proofSibling
        rw [hbit, if_pos rfl, List.getD_eq_getElem _ _ hlt]
      rw [hsibling]
      constructor
      · intro root h
        obtain ⟨sibling, hdecode, hrest⟩ := bind_ok.mp h
        rw [mapError_ok] at hdecode
        rw [hdecode]
        exact (ih _).1 root hrest
      · intro hall
        obtain ⟨sibling, hdecode⟩ := hall _ (List.getElem_mem hlt)
        obtain ⟨root, hroot⟩ := (ih (MerkleMap.join (sparseBranchHash domain) depth (bitAt path.val depth) current
          sibling)).2 hall
        exact ⟨root, bind_ok.mpr ⟨sibling, by rw [mapError_ok, hdecode], hroot⟩⟩

end Verifier

/-! ### Completeness -/

section Prover

variable [Primitives] {h : SparseHeap} {id : Nat} {path : Digest} {m : GoMap Digest SparseLeaf}

/-- The sibling of the path at a depth, as the tree has it. -/
def treeSibling (h : SparseHeap) (id : Nat) (path : Digest) (depth : Nat) : Digest :=
  (h.node id (sparseSiblingNodeKey path.val depth)).getD (sparseDefaults h.domain (depth + 1))

/-- Whether `Prove` lists the sibling it meets at a level. -/
def listed (h : SparseHeap) (id : Nat) (path : Digest) (level : Nat) : Bool :=
  treeSibling h id path (levelOf level) ≠ sparseDefaults h.domain (levelOf level + 1)

private theorem proveLevel_eq (built : List UInt8 × List String) (level : Nat) :
    h.proveLevel id path built level = if listed h id path level then
      (setSparseBitmapBit built.1 level, built.2 ++ [sparseEncodeDigest (treeSibling h id path (levelOf level))])
      else built := by
  unfold SparseHeap.proveLevel listed
  simp only [decide_eq_true_eq]
  rfl

/-- The bitmap and the siblings after some levels of the loop of `Prove`. -/
theorem proveLevels (h : SparseHeap) (id : Nat) (path : Digest) (n : Nat) (hn : n ≤ sparseDepth) :
    let built := (List.range n).foldl (h.proveLevel id path) (List.replicate (sparseDepth / 8) 0, [])
    built.1.length = 32 ∧ (∀ j, bitAt built.1 j = (decide (j < n) && listed h id path j)) ∧
      built.2 = ((List.range n).filter (listed h id path)).map fun level =>
        sparseEncodeDigest (treeSibling h id path (levelOf level)) := by
  induction n with
  | zero =>
    refine ⟨rfl, fun j => ?_, rfl⟩
    simp [bitAt]
  | succ n ih =>
    obtain ⟨hlength, hbits, hsiblings⟩ := ih (by omega)
    simp only [List.range_succ, List.foldl_append, List.foldl_cons, List.foldl_nil, List.filter_append, proveLevel_eq]
    generalize (List.range n).foldl (h.proveLevel id path) (List.replicate (sparseDepth / 8) 0, []) = built at *
    have hlast : ∀ j, j ≠ n → decide (j < n + 1) = decide (j < n) := fun j hj => decide_eq_decide.mpr (by omega)
    cases hlisted : listed h id path n with
    | false =>
      refine ⟨hlength, fun j => ?_, by simpa [hlisted] using hsiblings⟩
      rw [if_neg Bool.false_ne_true, hbits]
      by_cases hj : j = n
      · simp [hj, hlisted]
      · rw [hlast j hj]
    | true =>
      rw [if_pos rfl]
      refine ⟨by simpa [setSparseBitmapBit, updateByte] using hlength, fun j => ?_, by simp [hlisted, hsiblings]⟩
      rw [bitAt_setSparseBitmapBit hlength (by unfold sparseDepth at hn; omega), hbits]
      by_cases hj : j = n
      · simp [hj, hlisted]
      · rw [hlast j hj, decide_eq_false hj, Bool.or_false]

/-- The siblings of a proof of `Prove` are those of the tree. -/
theorem proofSibling_prove {bitmap : List UInt8} {siblings : List String}
    (hbits : ∀ j < sparseDepth, bitAt bitmap j = listed h id path j)
    (hsiblings : siblings = ((List.range sparseDepth).filter (listed h id path)).map fun level =>
      sparseEncodeDigest (treeSibling h id path (levelOf level)))
    {depth : Nat} (hdepth : depth < sparseDepth) :
    proofSibling h.domain bitmap siblings depth = treeSibling h id path depth := by
  have hlevel : levelOf depth < sparseDepth := by unfold levelOf; omega
  have hback : levelOf (levelOf depth) = depth := by unfold levelOf; omega
  unfold proofSibling
  rw [hbits _ hlevel]
  cases hlisted : listed h id path (levelOf depth) with
  | false =>
    rw [if_neg Bool.false_ne_true]
    unfold listed at hlisted
    rw [hback] at hlisted
    have hdefault : treeSibling h id path depth = sparseDefaults h.domain (depth + 1) := by simpa using hlisted
    exact hdefault.symm
  | true =>
    have hbefore : siblingsBefore bitmap (levelOf depth) =
        ((List.range (levelOf depth)).filter (listed h id path)).length := by
      unfold siblingsBefore
      rw [← List.countP_eq_length_filter]
      exact List.countP_congr fun j hj => by rw [hbits j (by have := List.mem_range.mp hj; omega)]
    have hsplit : List.range sparseDepth = List.range (levelOf depth) ++
        levelOf depth :: (List.range (sparseDepth - (levelOf depth + 1))).map (levelOf depth + 1 + ·) := by
      rw [← List.singleton_append, ← List.append_assoc, ← List.range_succ, ← List.range_add]
      congr 1
      omega
    have hfound : siblings.getD (siblingsBefore bitmap (levelOf depth)) "" =
        sparseEncodeDigest (treeSibling h id path depth) := by
      rw [hsiblings, hsplit, List.filter_append, List.filter_cons_of_pos hlisted, List.map_append, hbefore,
        List.getD_eq_getElem?_getD, List.getElem?_append_right (by simp), List.length_map, Nat.sub_self,
        List.map_cons, hback]
      rfl
    rw [if_pos rfl, hfound, sparseDecodeDigest_sparseEncodeDigest]
    rfl

theorem treeSibling_eq (hr : Represents h id m) {depth : Nat} (hdepth : depth < sparseDepth) :
    treeSibling h id path depth = subtreeDigest h.domain m (sparseDepth - (depth + 1))
      (bitsUpTo path.val depth ++ [!bitAt path.val depth]) := by
  have hnode := hr.node ⟨flipBit path.val depth, by rw [length_flipBit, path.property]⟩ (depth + 1) hdepth
  unfold SparseHeap.nodeDigest at hnode
  rw [bitsUpTo_flipBit path.property hdepth, depth_sparseNodeKeyAtDepth, ← sparseSiblingNodeKey_eq] at hnode
  exact hnode

/-- The digest of the root of a tree. -/
def rootDigest (h : SparseHeap) (id : Nat) : Digest := h.nodeDigest id { depth := 0, bits := List.replicate 32 0 }

theorem rootDigest_eq (hr : Represents h id m) : rootDigest h id = subtreeDigest h.domain m sparseDepth [] :=
  hr.node ⟨List.replicate 32 0, rfl⟩ 0 (Nat.zero_le _)

/-- Climbing with the siblings of the tree leads from the path's leaf to the root. -/
theorem climb_treeSibling (hr : Represents h id m) {siblings : Nat → Digest}
    (hsiblings : ∀ depth < sparseDepth, siblings depth = treeSibling h id path depth) :
    MerkleMap.climb (sparseBranchHash h.domain) (bitAt path.val) siblings sparseDepth (leafDigest h.domain m path) =
      rootDigest h id := by
  rw [rootDigest_eq hr, ← subtreeDigest_zero]
  have hown : ∀ i < sparseDepth, siblings i = MerkleMap.subtree (sparseBranchHash h.domain)
      (leafOf (sparseEmptyLeafHash h.domain) (leafDigest h.domain m)) (0 + sparseDepth - (i + 1))
      (MerkleMap.pathPrefix (bitAt path.val) i ++ [!bitAt path.val i]) := by
    intro i hi
    rw [hsiblings i hi, treeSibling_eq hr hi, Nat.zero_add]
    rfl
  have hclimb := MerkleMap.climb_subtree (sparseBranchHash h.domain) hown
  rw [Nat.zero_add] at hclimb
  exact hclimb

theorem answerDigest_eq (hr : Represents h id m) {key : String}
    (hcollision : ∀ leaf ∈ h.leaf id (sparsePath h.domain key), leaf.key = key) :
    answerDigest h.domain key ((h.leaf id (sparsePath h.domain key)).map SparseLeaf.value) =
      leafDigest h.domain m (sparsePath h.domain key) := by
  unfold answerDigest leafDigest
  rw [← hr.leaf]
  cases hleaf : h.leaf id (sparsePath h.domain key) with
  | none => rfl
  | some leaf =>
    rw [← hcollision leaf hleaf]
    rfl

omit [Primitives] in
private theorem proofAnswer_of {proof : SparseProof} {existing : Option SparseLeaf}
    (hexists : proof.keyExists = existing.isSome)
    (hvalue : proof.value = existing.elim "" fun leaf => String.ofList (base64Encode leaf.value))
    (hbound : ∀ leaf ∈ existing, 0 < leaf.value.length ∧ leaf.value.length ≤ maxSparseValue) :
    proofAnswer proof = .ok (existing.map SparseLeaf.value) := by
  unfold proofAnswer
  cases existing with
  | none =>
    rw [hexists, if_neg (by decide)]
    simp only [bind_ok, refuseIf_ok, exists_const, pure_eq_ok]
    exact ⟨not_not.mpr hvalue, rfl⟩
  | some leaf =>
    have hleaf := hbound leaf rfl
    have hdecoded : proofLeaf proof = .ok leaf.value := by
      simp only [proofLeaf, bind_ok, require_ok, refuseIf_ok, exists_const, pure_eq_ok, Except.ok.injEq]
      refine ⟨leaf.value, ?_, ?_, rfl⟩
      · rw [hvalue, Option.elim_some, String.toList_ofList, base64Decode_base64Encode]
      · rw [hvalue, Option.elim_some]
        simp only [ne_eq, not_true_eq_false, or_false, not_or]
        omega
    rw [hexists, if_pos Option.isSome_some, hdecoded]
    rfl

/-- The proof a tree gives out verifies against its root, to its answer. -/
theorem prove_verifies (hr : Represents h id m) (hdomain : validateDomain h.domain = .ok ()) {key : String}
    {answer : Option (List UInt8)} (hget : h.get id key = .ok answer) :
    ∃ proof, h.prove id key = .ok proof ∧ verifySparse (h.root id) proof = .ok answer := by
  simp only [SparseHeap.get, bind_ok, refuseIf_ok, exists_const, pure_eq_ok, Except.ok.injEq] at hget
  obtain ⟨_, hkey, hno, rfl⟩ := hget
  have hcollision : ∀ leaf ∈ h.leaf id (sparsePath h.domain key), leaf.key = key := by
    push Not at hno
    exact hno
  obtain ⟨hlength, hbits, hsiblings⟩ := proveLevels h id (sparsePath h.domain key) sparseDepth (Nat.le_refl _)
  set path := sparsePath h.domain key with hpath
  set built := (List.range sparseDepth).foldl (h.proveLevel id path) (List.replicate (sparseDepth / 8) 0, []) with hbuilt
  have hlisted : ∀ j < sparseDepth, bitAt built.1 j = listed h id path j := fun j hj => by simp [hbits, hj]
  have hcount : built.2.length = siblingsBefore built.1 sparseDepth := by
    rw [hsiblings, List.length_map, ← List.countP_eq_length_filter]
    exact List.countP_congr fun j hj => by rw [hlisted j (List.mem_range.mp hj)]
  have hones : (built.1.map onesCount).sum = siblingsBefore built.1 sparseDepth := by
    rw [sum_onesCount, hlength]
    rfl
  have hdecodes : ∀ text ∈ built.2, ∃ d, sparseDecodeDigest text = .ok d := by
    intro text htext
    rw [hsiblings] at htext
    obtain ⟨level, -, rfl⟩ := List.mem_map.mp htext
    exact ⟨_, sparseDecodeDigest_sparseEncodeDigest _⟩
  have hverify := verifyPath_eq h.domain path sparseDepth (Nat.le_refl _) hcount.ge
    (leafDigest h.domain m path)
  obtain ⟨root, hroot⟩ := hverify.2 hdecodes
  have hrootDigest := hverify.1 root hroot
  rw [climb_treeSibling hr fun depth hd => proofSibling_prove hlisted hsiblings hd] at hrootDigest
  have hanswer : answerDigest h.domain key ((h.leaf id path).map SparseLeaf.value) = leafDigest h.domain m path :=
    answerDigest_eq hr hcollision
  have hnothing : siblingsBefore built.1 (sparseDepth - sparseDepth) = 0 := rfl
  rw [hnothing, List.drop_zero, ← hanswer] at hroot
  have hlimit : siblingsBefore built.1 sparseDepth ≤ sparseDepth := by
    have := (List.range sparseDepth).countP_le_length (p := bitAt built.1)
    rwa [List.length_range] at this
  have hbound : ∀ leaf ∈ h.leaf id path, 0 < leaf.value.length ∧ leaf.value.length ≤ maxSparseValue := by
    intro leaf hleaf
    rw [hr.leaf] at hleaf
    exact (hr.keyed path leaf hleaf).2.2
  refine ⟨{
    protocol := sparseProtocol, domain := h.domain, key, keyExists := (h.leaf id path).isSome
    value := (h.leaf id path).elim "" fun leaf => String.ofList (base64Encode leaf.value)
    bitmap := String.ofList (base64Encode built.1), siblings := built.2 }, ?_, ?_⟩
  · simp only [SparseHeap.prove, bind_ok, refuseIf_ok, exists_const, pure_eq_ok]
    exact ⟨(), hkey, hno, rfl⟩
  · simp only [verifySparse, bind_ok, refuseIf_ok, require_ok, mapError_ok, exists_const, pure_eq_ok]
    refine ⟨by simp, (), hdomain, (), hkey, built.1, ?_, ?_, ?_, _, proofAnswer_of rfl rfl hbound, root, hroot,
      rootDigest h id, sparseDecodeDigest_sparseEncodeDigest _, ?_, rfl⟩
    · rw [String.toList_ofList, base64Decode_base64Encode]
    · simp [hlength, sparseDepth]
    · omega
    · rw [hrootDigest]
      simp

end Prover

/-! ### Soundness -/

section Soundness

variable [Primitives] {h : SparseHeap} {id : Nat} {m : GoMap Digest SparseLeaf}

/-- What the digests along a path of a tree are the hashes of, from the children of depth `depth` up. -/
def branchEncodings (h : SparseHeap) (id : Nat) (path : Digest) : Nat → List (List UInt8)
  | 0 => []
  | depth + 1 =>
    MerkleMap.join (sparseBranchEncoding h.domain) depth (bitAt path.val depth)
      (h.nodeDigest id (sparseNodeKeyAtDepth path.val (depth + 1))) (treeSibling h id path depth) ::
      branchEncodings h id path depth

/-- What the digests along a path of a tree are the hashes of: its leaf, then every branch up to the root. -/
def treeEncodings (h : SparseHeap) (id : Nat) (path : Digest) : List (List UInt8) :=
  answerEncoding h.domain path (h.leaf id path) :: branchEncodings h id path sparseDepth

/-- What a verifier hashes on the way from a claimed answer to the root. -/
def proofEncodings (proof : SparseProof) (answer : Option (List UInt8)) : List (List UInt8) :=
  let path := sparsePath proof.domain proof.key
  let bitmap := (base64Decode proof.bitmap.toList).getD []
  answerEncoding proof.domain path (answer.map fun value => { key := proof.key, value }) ::
    MerkleMap.climbEncodings Primitives.keccak (sparseBranchEncoding proof.domain) (bitAt path.val)
      (proofSibling proof.domain bitmap proof.siblings) sparseDepth (answerDigest proof.domain proof.key answer)

/-- The digest of the subtree of a tree below some bits. -/
private noncomputable def below (domain : String) (m : GoMap Digest SparseLeaf) (bits : List Bool) : Digest :=
  subtreeDigest domain m (sparseDepth - bits.length) bits

private theorem below_branch (domain : String) (bits : List Bool) (hbits : bits.length < sparseDepth) :
    below domain m bits = Primitives.keccak (sparseBranchEncoding domain bits.length
      (below domain m (bits ++ [false])) (below domain m (bits ++ [true]))) := by
  have hheight : sparseDepth - bits.length = sparseDepth - (bits.length + 1) + 1 := by omega
  unfold below subtreeDigest
  rw [hheight, MerkleMap.subtree]
  simp only [List.length_append, List.length_cons, List.length_nil, Nat.zero_add]
  rfl

private theorem below_nil {domain : String} : below domain m [] = subtreeDigest domain m sparseDepth [] := by
  unfold below
  rw [List.length_nil, Nat.sub_zero]

private theorem below_path {domain : String} (path : Digest) :
    below domain m (MerkleMap.pathPrefix (bitAt path.val) sparseDepth) = leafDigest domain m path := by
  unfold below
  rw [MerkleMap.length_pathPrefix, Nat.sub_self]
  exact subtreeDigest_zero domain m path

private theorem climb_below {domain domain' : String} {bits : Nat → Bool} {siblings : Nat → Digest} {depth : Nat}
    {current : Digest} (hdomain' : validateDomain domain' = .ok ()) (hdomain : validateDomain domain = .ok ())
    (hdepth : depth ≤ sparseDepth)
    (hclimb : MerkleMap.climb (sparseBranchHash domain') bits siblings depth current = below domain m []) :
    current = below domain m (MerkleMap.pathPrefix bits depth) ∨
      MerkleMap.Collides Primitives.keccak
        (MerkleMap.climbEncodings Primitives.keccak (sparseBranchEncoding domain') bits siblings depth current)
        (MerkleMap.pathEncodings (sparseBranchEncoding domain) (below domain m) bits depth) := by
  refine MerkleMap.climb_sound Primitives.keccak
    (fun i l r l' r' => sparseBranchEncoding_inj hdomain' hdomain i) (fun i hi => ?_) hclimb
  have hbranch := below_branch (m := m) domain (MerkleMap.pathPrefix bits i)
    (by rw [MerkleMap.length_pathPrefix]; omega)
  rwa [MerkleMap.length_pathPrefix] at hbranch

private theorem branchEncodings_eq (hr : Represents h id m) (path : Digest) (depth : Nat) (hdepth : depth ≤ sparseDepth) :
    MerkleMap.pathEncodings (sparseBranchEncoding h.domain) (below h.domain m) (bitAt path.val) depth =
      branchEncodings h id path depth := by
  induction depth with
  | zero => rfl
  | succ depth ih =>
    rw [MerkleMap.pathEncodings, branchEncodings, ih (by omega)]
    congr 1
    have hown : below h.domain m (MerkleMap.pathPrefix (bitAt path.val) depth ++ [bitAt path.val depth]) =
        h.nodeDigest id (sparseNodeKeyAtDepth path.val (depth + 1)) := by
      rw [hr.node path (depth + 1) hdepth, ← MerkleMap.pathPrefix_succ]
      unfold below
      rw [MerkleMap.length_pathPrefix]
      rfl
    have hsibling : below h.domain m (MerkleMap.pathPrefix (bitAt path.val) depth ++ [!bitAt path.val depth]) =
        treeSibling h id path depth := by
      rw [treeSibling_eq hr (by omega)]
      unfold below
      rw [List.length_append, MerkleMap.length_pathPrefix]
      rfl
    unfold MerkleMap.join
    cases hbit : bitAt path.val depth with
    | false =>
      rw [hbit] at hown hsibling
      rw [if_neg Bool.false_ne_true, hown, ← hsibling]
      rfl
    | true =>
      rw [hbit] at hown hsibling
      rw [if_pos rfl, hown, ← hsibling]
      rfl

private theorem answerDigest_keccak (domain key : String) (answer : Option (List UInt8)) :
    answerDigest domain key answer = Primitives.keccak (answerEncoding domain (sparsePath domain key)
      (answer.map fun value => { key, value })) := by
  cases answer <;> rfl

private theorem leafDigest_keccak (hr : Represents h id m) (path : Digest) :
    leafDigest h.domain m path = Primitives.keccak (answerEncoding h.domain path (h.leaf id path)) := by
  unfold leafDigest
  rw [← hr.leaf]
  cases h.leaf id path <;> rfl

/-- A proof that verifies is a climb from its claimed answer to the root. -/
theorem verifySparse_climb {root : Digest} {proof : SparseProof} {answer : Option (List UInt8)}
    (hverify : verifySparse (sparseEncodeDigest root) proof = .ok answer) :
    validateDomain proof.domain = .ok () ∧ validateSparseKey proof.key = .ok () ∧
      ∃ bitmap, base64Decode proof.bitmap.toList = some bitmap ∧
        MerkleMap.climb (sparseBranchHash proof.domain) (bitAt (sparsePath proof.domain proof.key).val)
          (proofSibling proof.domain bitmap proof.siblings) sparseDepth
          (answerDigest proof.domain proof.key answer) = root := by
  simp only [verifySparse, bind_ok, refuseIf_ok, require_ok, mapError_ok, exists_const, pure_eq_ok,
    Except.ok.injEq] at hverify
  obtain ⟨-, _, hdomain, _, hkey, bitmap, hbitmap, hlength, hcount, claimed, hclaimed, current, hcurrent, expected,
    hexpected, hsame, rfl⟩ := hverify
  rw [sparseDecodeDigest_sparseEncodeDigest] at hexpected
  obtain rfl := Except.ok.inj hexpected
  refine ⟨hdomain, hkey, bitmap, hbitmap, ?_⟩
  have hones : siblingsBefore bitmap sparseDepth ≤ proof.siblings.length := by
    have hsum := sum_onesCount bitmap
    rw [show bitmap.length = 32 by unfold sparseDepth at hlength; omega] at hsum
    have : siblingsBefore bitmap sparseDepth = (bitmap.map onesCount).sum := hsum.symm
    omega
  have hclimb := (verifyPath_eq proof.domain (sparsePath proof.domain proof.key) sparseDepth (Nat.le_refl _) hones
    (answerDigest proof.domain proof.key claimed)).1 current (by simpa [siblingsBefore] using hcurrent)
  rw [hclimb]
  exact not_not.mp hsame

/-- A proof that verifies against the root of a tree states the tree's answer, or an encoding the verifier
hashed collides with the tree's at the same depth. -/
theorem verifySparse_sound (hr : Represents h id m) (hdomain : validateDomain h.domain = .ok ()) {proof : SparseProof}
    {answer : Option (List UInt8)} (hverify : verifySparse (h.root id) proof = .ok answer) :
    (proof.domain = h.domain ∧ h.get id proof.key = .ok answer) ∨
      MerkleMap.Collides Primitives.keccak (proofEncodings proof answer)
        (treeEncodings h id (sparsePath proof.domain proof.key)) := by
  rw [show h.root id = sparseEncodeDigest (rootDigest h id) from rfl] at hverify
  obtain ⟨hdomain', hkey, bitmap, hbitmap, hclimb⟩ := verifySparse_climb hverify
  rw [rootDigest_eq hr, ← below_nil] at hclimb
  obtain hleaf | hcollides := climb_below hdomain' hdomain (Nat.le_refl _) hclimb
  · rw [below_path, leafDigest_keccak hr, answerDigest_keccak] at hleaf
    by_cases hencoding : answerEncoding proof.domain (sparsePath proof.domain proof.key)
        (answer.map fun value => { key := proof.key, value }) =
          answerEncoding h.domain (sparsePath proof.domain proof.key) (h.leaf id (sparsePath proof.domain proof.key))
    · left
      obtain ⟨hsameDomain, hanswer⟩ := answerEncoding_inj hdomain' hdomain
        (by rintro leaf hleaf; obtain ⟨value, -, rfl⟩ := Option.map_eq_some_iff.mp hleaf; exact hkey)
        (fun leaf hleaf => (hr.keyed _ leaf (by rw [← hr.leaf]; exact hleaf)).2.1) hencoding
      refine ⟨hsameDomain, ?_⟩
      rw [hsameDomain] at hanswer
      simp only [SparseHeap.get, bind_ok, refuseIf_ok, exists_const, pure_eq_ok, Except.ok.injEq, ← hanswer]
      refine ⟨(), hkey, ?_, ?_⟩
      · rintro ⟨leaf, hleaf, hne⟩
        obtain ⟨value, -, rfl⟩ := Option.map_eq_some_iff.mp hleaf
        exact hne rfl
      · cases answer <;> rfl
    · exact .inr (MerkleMap.collides_head _ hencoding hleaf)
  · right
    rw [branchEncodings_eq hr _ _ (Nat.le_refl _)] at hcollides
    unfold proofEncodings treeEncodings
    rw [hbitmap]
    exact hcollides.cons _

/-- The proofs of a tree that may still be used after a session. They verify, to the tree's answer, unless the
key has the path of another stored key and both calls are refused. A proof that verifies against the tree's root
states its answer, or exhibits two encodings of one hash. -/
theorem session_proofs {domain : String} {h : SparseHeap} {maps : Nat → Option (GoMap String (List UInt8))}
    (hs : Session domain h maps) {id : Nat} {m : GoMap String (List UInt8)} (live : maps id = some m) :
    (∀ key, validateSparseKey key = .ok () →
      (∃ answer proof, h.get id key = .ok answer ∧ h.prove id key = .ok proof ∧
        verifySparse (h.root id) proof = .ok answer) ∨
      (h.get id key = .error (newError "sparse key hash collision") ∧
        h.prove id key = .error (newError "sparse key hash collision") ∧
        ∃ k ∈ m, sparsePathEncoding domain k ≠ sparsePathEncoding domain key ∧
          Primitives.keccak (sparsePathEncoding domain k) = Primitives.keccak (sparsePathEncoding domain key))) ∧
    ∀ proof answer, verifySparse (h.root id) proof = .ok answer →
      (proof.domain = domain ∧ h.get id proof.key = .ok answer) ∨
        MerkleMap.Collides Primitives.keccak (proofEncodings proof answer)
          (treeEncodings h id (sparsePath proof.domain proof.key)) := by
  have inv := hs.invariant
  have hm := inv.holds id m live
  obtain rfl := inv.domain
  obtain ⟨leaves, hr, -⟩ := hm.leaves
  refine ⟨fun key hkey => ?_, fun proof answer hverify => verifySparse_sound hr inv.canonical hverify⟩
  by_cases hpath : ∀ k ∈ m, sparsePath h.domain k = sparsePath h.domain key → k = key
  · left
    have hget := (hm.calls hkey hpath).1
    obtain ⟨proof, hprove, hverify⟩ := prove_verifies hr inv.canonical hget
    exact ⟨_, proof, hget, hprove, hverify⟩
  · right
    push Not at hpath
    obtain ⟨k, hk, hsame, hne⟩ := hpath
    obtain ⟨value, hvalue⟩ := Finmap.mem_iff.mp hk
    have hrefused : refuseIf (∃ leaf ∈ h.leaf id (sparsePath h.domain key), leaf.key ≠ key)
        (newError "sparse key hash collision") = .error (newError "sparse key hash collision") :=
      if_pos ⟨⟨k, value⟩, (hm.leaf_iff _ _).mpr ⟨hsame, hvalue⟩, hne⟩
    refine ⟨?_, ?_, k, hk, mt sparsePathEncoding_inj hne, hsame⟩
    · simp only [SparseHeap.get, hkey, hrefused]
      rfl
    · simp only [SparseHeap.prove, hkey, hrefused]
      rfl

end Soundness

section Published

attribute [local instance] checksumPrimitives

/-- In the published tree the nonce has a proof that it is there and the balance one that it is not. -/
theorem session_proofs_published : ∃ h₁ h₂ h₃,
    SparseHeap.set { domain := domainSparseState, objects := [{}] } 0 "balance" [1] = .ok h₁ ∧
    h₁.set 0 "nonce" [2] = .ok h₂ ∧ (h₂.clone 0).delete h₂.objects.length "balance" = .ok h₃ ∧
    ∀ key ∈ ["balance", "nonce"], ∃ proof,
      (h₃.publish h₂.objects.length).prove (h₃.baseOf h₂.objects.length) key = .ok proof ∧
      verifySparse ((h₃.publish h₂.objects.length).root (h₃.baseOf h₂.objects.length)) proof =
        .ok (if key = "nonce" then some [2] else none) := by
  obtain ⟨h₁, h₂, h₃, maps, hset₁, hset₂, hdelete, hs, live⟩ := session_published
  refine ⟨h₁, h₂, h₃, hset₁, hset₂, hdelete, fun key hkey => ?_⟩
  have hvalid : validateSparseKey key = .ok () := by
    rcases List.mem_pair.mp hkey with rfl | rfl
    · exact validKeys.1
    · exact validKeys.2
  have hget := ((hs.invariant.holds _ _ live).calls hvalid (by
    rw [hs.invariant.domain]
    intro k hk hpath
    rw [bothEntries, Finmap.mem_erase] at hk
    obtain rfl : k = "nonce" := (Finmap.mem_insert.mp hk.2).resolve_right fun hother =>
      hk.1 ((Finmap.mem_insert.mp hother).resolve_right Finmap.notMem_empty)
    rcases List.mem_pair.mp hkey with rfl | rfl
    · exact absurd hpath.symm paths_differ
    · rfl)).1
  obtain ⟨answer, proof, hanswer, hprove, hverify⟩ | ⟨hrefused, -⟩ := (session_proofs hs live).1 key hvalid
  · refine ⟨proof, hprove, hverify.trans ?_⟩
    rw [← hanswer, hget, bothEntries]
    rcases List.mem_pair.mp hkey with rfl | rfl <;> rfl
  · rw [hget] at hrefused
    cases hrefused

end Published

/-! ### A clone of a tree that is written to -/

section Stale

/-- A hash that keeps the largest value byte below a node. -/
def loudestHash (text : List UInt8) : Digest :=
  let tail := text.drop (text.length - 64)
  if text.headD 0 = 0x13 then
    ⟨List.replicate 32 (if tail.getD 0 0 ≤ tail.getD 32 0 then tail.getD 32 0 else tail.getD 0 0), by simp⟩
  else if text.headD 0 = 0x11 then ⟨List.replicate 32 0, by simp⟩
  else ⟨List.replicate 32 (text.getLastD 0), by simp⟩

@[reducible] def loudestPrimitives : Primitives := { constantPrimitives with keccak := loudestHash }

/-- The byte that `loudestHash` repeats. -/
def loudness (d : Digest) : Nat := (d.val.getD 0 0).toNat

private theorem loudness_branch (domain : String) (depth : Nat) (l r : Digest) :
    loudness (@sparseBranchHash loudestPrimitives domain depth l r) = max (loudness l) (loudness r) := by
  have hsplit : sparseBranchEncoding domain depth l r =
      (0x13 :: UInt8.ofNat (stringBytes domain).length :: (stringBytes domain ++ bigEndianBytes 2 depth)) ++
        (l.val ++ r.val) := by
    simp [sparseBranchEncoding]
  have htail : (sparseBranchEncoding domain depth l r).drop
      ((sparseBranchEncoding domain depth l r).length - 64) = l.val ++ r.val := by
    rw [hsplit]
    apply List.drop_left'
    simp [l.property, r.property]
  have hhead : (sparseBranchEncoding domain depth l r).headD 0 = 0x13 := rfl
  have hleft : (l.val ++ r.val).getD 0 0 = l.val.getD 0 0 :=
    List.getD_append _ _ _ _ (by rw [l.property]; decide)
  have hright : (l.val ++ r.val).getD 32 0 = r.val.getD 0 0 := by
    rw [List.getD_append_right _ _ _ _ (by rw [l.property]), l.property]
  change loudness (loudestHash (sparseBranchEncoding domain depth l r)) = _
  simp only [loudestHash, htail, hhead, hleft, hright, if_true, loudness]
  generalize l.val.getD 0 0 = a
  generalize r.val.getD 0 0 = b
  change (if a ≤ b then b else a).toNat = _
  split
  · next hle => exact (max_eq_right (UInt8.le_iff_toNat_le.mp hle)).symm
  · next hle =>
    rw [UInt8.le_iff_toNat_le] at hle
    exact (max_eq_left (by omega)).symm

/-- No node of a tree is louder than its leaves. -/
private theorem loudness_subtree_le {domain : String} {leaf : List Bool → Digest} {bound : Nat}
    (hleaf : ∀ bits, loudness (leaf bits) ≤ bound) (n : Nat) (bits : List Bool) :
    loudness (MerkleMap.subtree (@sparseBranchHash loudestPrimitives domain) leaf n bits) ≤ bound := by
  induction n generalizing bits with
  | zero => exact hleaf bits
  | succ n ih =>
    rw [MerkleMap.subtree, loudness_branch]
    exact max_le (ih _) (ih _)

/-- A climb never gets quieter. -/
private theorem loudness_climb_ge {domain : String} {bits : Nat → Bool} {siblings : Nat → Digest} (depth : Nat)
    (current : Digest) : loudness current ≤
      loudness (MerkleMap.climb (@sparseBranchHash loudestPrimitives domain) bits siblings depth current) := by
  induction depth generalizing current with
  | zero => exact le_refl _
  | succ depth ih =>
    refine le_trans ?_ (ih _)
    unfold MerkleMap.join
    split
    · rw [loudness_branch]; exact le_max_right _ _
    · rw [loudness_branch]; exact le_max_left _ _

variable [Primitives]

/-- The loop of a write keeps the leaves of the object, and in a clone it leaves an entry for the root. -/
private theorem recalculatePath_object {id : Nat} (path : Digest) (depth : Nat) (h : SparseHeap) (current : Digest)
    (hid : id < h.objects.length) (hparent : (object h.objects id).parent ≠ none) :
    let t := object (SparseHeap.recalculatePath id path depth h current).objects id
    t.leaves = (object h.objects id).leaves ∧ t.deletedLeaves = (object h.objects id).deletedLeaves ∧
      (0 < depth → ∃ entry, SparseTree.ownNode (sparseNodeKeyAtDepth path.val 0) t = some entry) := by
  induction depth generalizing h current with
  | zero => exact ⟨rfl, rfl, fun hpos => absurd hpos (by decide)⟩
  | succ depth ih =>
    have hstep : ∀ (f : SparseTree → SparseTree) (next : Digest), (∀ t, (f t).parent = t.parent) →
        (∀ t, (f t).leaves = t.leaves) → (∀ t, (f t).deletedLeaves = t.deletedLeaves) →
        (∀ t, t.parent ≠ none → ∃ entry, SparseTree.ownNode (sparseNodeKeyAtDepth path.val depth) (f t) = some entry) →
        let t := object (SparseHeap.recalculatePath id path depth (h.update id f) next).objects id
        t.leaves = (object h.objects id).leaves ∧ t.deletedLeaves = (object h.objects id).deletedLeaves ∧
          ∃ entry, SparseTree.ownNode (sparseNodeKeyAtDepth path.val 0) t = some entry := by
      intro f next hparents hleaves hdeleted hown
      have hobject : object (h.update id f).objects id = f (object h.objects id) := by
        unfold SparseHeap.update
        simp only
        rw [object_updateObject hid, if_pos rfl]
      have hrest := ih (h.update id f) next (by simpa [SparseHeap.update] using hid)
        (by rw [hobject, hparents]; exact hparent)
      rw [hobject, hleaves, hdeleted] at hrest
      refine ⟨hrest.1, hrest.2.1, ?_⟩
      cases depth with
      | zero =>
        obtain ⟨entry, hentry⟩ := hown _ hparent
        refine ⟨entry, ?_⟩
        change SparseTree.ownNode _ (object (h.update id f).objects id) = _
        rw [hobject]
        exact hentry
      | succ depth => exact hrest.2.2 (Nat.succ_pos depth)
    obtain ⟨next, f, hf, heq⟩ := recalculatePath_succ id path depth h current
    rw [heq]
    obtain rfl | rfl := hf
    · obtain ⟨hleaves, hdeleted, hroot⟩ := hstep (SparseTree.deleteNode (sparseNodeKeyAtDepth path.val depth)) next
        (fun _ => rfl) (fun _ => rfl) (fun _ => rfl) fun t ht => ⟨none, by
          simp [SparseTree.ownNode, SparseTree.deleteNode, ht]⟩
      exact ⟨hleaves, hdeleted, fun _ => hroot⟩
    · obtain ⟨hleaves, hdeleted, hroot⟩ := hstep (SparseTree.setNode (sparseNodeKeyAtDepth path.val depth) next) next
        (fun _ => rfl) (fun _ => rfl) (fun _ => rfl) fun t _ => ⟨some next, by
          simp [SparseTree.ownNode, SparseTree.setNode]⟩
      exact ⟨hleaves, hdeleted, fun _ => hroot⟩

omit [Primitives] in
private theorem loudness_leafHash (domain key : String) (path : Digest) (value : List UInt8) (last : UInt8) :
    loudness (@sparseLeafHash loudestPrimitives domain path key (value ++ [last])) = last.toNat := by
  change loudness (loudestHash (sparseLeafEncoding domain path key (value ++ [last]))) = _
  have hsplit : sparseLeafEncoding domain path key (value ++ [last]) =
      (0x12 :: UInt8.ofNat (stringBytes domain).length :: (stringBytes domain ++ path.val ++
        bigEndianBytes 4 (stringBytes key).length ++ stringBytes key ++
        bigEndianBytes 8 (value ++ [last]).length ++ value)) ++ [last] := by
    simp [sparseLeafEncoding]
  have hlast : (sparseLeafEncoding domain path key (value ++ [last])).getLastD 0 = last := by
    rw [hsplit, List.getLastD_concat]
  have htag : (sparseLeafEncoding domain path key (value ++ [last])).headD 0 = 0x12 := rfl
  simp only [loudestHash, htag, hlast, loudness]
  rfl

/-- What a first write to a clone leaves in the clone itself. -/
private theorem set_object {h h' : SparseHeap} {id : Nat} {key : String} {value : List UInt8}
    (hid : id < h.objects.length) (hparent : (object h.objects id).parent ≠ none)
    (hfresh : h.leaf id (sparsePath h.domain key) = none) (hset : h.set id key value = .ok h') :
    (object h'.objects id).leaves = (object h.objects id).leaves.insert (sparsePath h.domain key) { key, value } ∧
      (object h'.objects id).deletedLeaves = (object h.objects id).deletedLeaves.erase (sparsePath h.domain key) ∧
      ∃ entry, SparseTree.ownNode (sparseNodeKeyAtDepth (sparsePath h.domain key).val 0) (object h'.objects id) =
        some entry := by
  simp only [SparseHeap.set, bind_ok, refuseIf_ok, exists_const, pure_eq_ok, hfresh, Option.map_none, reduceCtorEq,
    if_true, if_false] at hset
  obtain ⟨_, -, -, -, hset⟩ := hset
  obtain rfl := Except.ok.inj hset
  set written := ((h.update id (SparseTree.addEntries 1)).update id (SparseTree.setLeaf (sparsePath h.domain key)
    { key, value })).update id (SparseTree.setNode (sparseNodeKeyAtDepth (sparsePath h.domain key).val sparseDepth)
      (sparseLeafHash h.domain (sparsePath h.domain key) key value)) with hwritten
  have hobject : object written.objects id = SparseTree.setNode
      (sparseNodeKeyAtDepth (sparsePath h.domain key).val sparseDepth)
      (sparseLeafHash h.domain (sparsePath h.domain key) key value)
      (SparseTree.setLeaf (sparsePath h.domain key) { key, value }
        (SparseTree.addEntries 1 (object h.objects id))) := by
    rw [hwritten]
    simp only [SparseHeap.update, updateObject_updateObject]
    rw [object_updateObject hid, if_pos rfl]
    rfl
  have hdone := recalculatePath_object (sparsePath h.domain key) sparseDepth written
    (sparseLeafHash h.domain (sparsePath h.domain key) key value) (by simpa [hwritten, SparseHeap.update] using hid)
    (by rw [hobject]; exact hparent)
  rw [hobject] at hdone
  exact ⟨hdone.1, hdone.2.1, hdone.2.2 (by decide)⟩

omit [Primitives] in
private theorem loudness_root_le {h : SparseHeap} {id : Nat} {path : Digest} {key : String}
    (hr : @Represents loudestPrimitives h id (Finmap.insert path { key, value := [1] } ∅)) :
    loudness (@rootDigest loudestPrimitives h id) ≤ 1 := by
  let := loudestPrimitives
  rw [rootDigest_eq hr]
  refine loudness_subtree_le (fun bits => ?_) _ _
  have hempty : loudness (sparseEmptyLeafHash h.domain) ≤ 1 := Nat.zero_le 1
  unfold leafOf
  split
  · unfold leafDigest
    rw [GoMap.lookup_insert_if]
    split
    · exact (loudness_leafHash h.domain key _ [] 1).le
    · exact hempty
  · exact hempty

omit [Primitives] in
/-- A proof for a key that was written to the parent after the clone: it does not verify against the root of
the clone that gave it out. -/
theorem stale_clone_proof :
    letI := loudestPrimitives
    ∃ h₁ h₂ proof, (SparseHeap.clone { domain := domainSparseState, objects := [{}] } 0).set 1 "a" [1] = .ok h₁ ∧
      h₁.set 0 "b" [2] = .ok h₂ ∧ h₂.get 1 "b" = .ok (some [2]) ∧ h₂.prove 1 "b" = .ok proof ∧
      verifySparse (h₂.root 1) proof ≠ .ok (some [2]) := by
  let := loudestPrimitives
  set h₀ : SparseHeap := SparseHeap.clone { domain := domainSparseState, objects := [{}] } 0 with hh₀
  have hbase : Represents h₀ 0 ∅ := clone_other Nat.zero_lt_one (represents_new domainSparseState)
  have hclone : Represents h₀ 1 ∅ := clone_new (represents_new domainSparseState)
  have hparents : ParentsOlder h₀.objects := parentsOlder_clone ⟨by simp, trivial⟩ Nat.zero_lt_one
  obtain ⟨h₁, hset₁⟩ : ∃ h₁, h₀.set 1 "a" [1] = .ok h₁ :=
    set_ok_iff.mpr ⟨by decide, by decide, fun leaf hleaf => by rw [hclone.leaf] at hleaf; simp at hleaf⟩
  obtain ⟨htouch₁, hr₁⟩ := set_spec hparents (by decide) hclone hset₁
  obtain ⟨hleaves, hdeleted, entry, hentry⟩ := set_object (by decide) (by decide) (by rw [hclone.leaf]; rfl) hset₁
  have hbase₁ : Represents h₁ 0 ∅ := hbase.of_touches htouch₁ (by decide) (by decide) (by decide)
  have hparents₁ := htouch₁.parentsOlder hparents
  have hlen₁ : h₁.objects.length = 2 := htouch₁.length
  obtain ⟨h₂, hset₂⟩ : ∃ h₂, h₁.set 0 "b" [2] = .ok h₂ :=
    set_ok_iff.mpr ⟨by decide, by decide, fun leaf hleaf => by rw [hbase₁.leaf] at hleaf; simp at hleaf⟩
  obtain ⟨htouch₂, hr₂⟩ := set_spec hparents₁ (by omega) hbase₁ hset₂
  have hobject : object h₂.objects 1 = object h₁.objects 1 := by
    obtain ⟨-, f, -, hobjects⟩ := htouch₂
    rw [hobjects, object_updateObject (by omega), if_neg (by decide)]
  have hparent : (object h₁.objects 1).parent = some 0 := by
    obtain ⟨-, f, hf, hobjects⟩ := htouch₁
    rw [hobjects, object_updateObject (by decide), if_pos rfl, hf]
    rfl
  have hparents₂ := htouch₂.parentsOlder hparents₁
  have hlen₂ : h₂.objects.length = 2 := htouch₂.length.trans hlen₁
  have hdomain₁ : h₁.domain = domainSparseState := htouch₁.1
  have hdomain₂ : h₂.domain = domainSparseState := htouch₂.1.trans hdomain₁
  -- the clone has no entry of its own for the key, so it answers with its parent's
  have hown : SparseTree.ownLeaf (sparsePath domainSparseState "b") (object h₁.objects 1) = none := by
    have hne : sparsePath domainSparseState "b" ≠ sparsePath h₀.domain "a" := by decide
    unfold SparseTree.ownLeaf
    rw [hleaves, hdeleted, GoMap.lookup_insert_if, if_neg hne]
    rfl
  have hleaf : h₂.leaf 1 (sparsePath domainSparseState "b") = some { key := "b", value := [2] } := by
    unfold SparseHeap.leaf
    rw [resolve_eq hparents₂ (by omega), hobject, hparent, hown]
    change h₂.leaf 0 _ = _
    rw [hr₂.leaf, hdomain₁, GoMap.lookup_insert_if, if_pos rfl]
  have hno : ¬∃ leaf ∈ h₂.leaf 1 (sparsePath h₂.domain "b"), leaf.key ≠ "b" := by
    rw [hdomain₂, hleaf]
    simp
  -- its root is its own and older than the parent's write
  have hroot : rootDigest h₂ 1 = rootDigest h₁ 1 := by
    have hkey : sparseNodeKeyAtDepth (sparsePath h₀.domain "a").val 0 =
        { depth := 0, bits := List.replicate 32 0 } := by decide
    rw [hkey] at hentry
    unfold rootDigest SparseHeap.nodeDigest SparseHeap.node
    rw [resolve_eq hparents₂ (by omega), resolve_eq hparents₁ (by omega), hobject, hentry, hdomain₁, hdomain₂]
    rfl
  obtain ⟨proof, hproof⟩ : ∃ proof, h₂.prove 1 "b" = .ok proof := by
    simp only [SparseHeap.prove, bind_ok, refuseIf_ok, exists_const, pure_eq_ok]
    exact ⟨_, (), by decide, hno, rfl⟩
  refine ⟨h₁, h₂, proof, hset₁, hset₂, ?_, hproof, fun hverify => ?_⟩
  · simp only [SparseHeap.get, bind_ok, refuseIf_ok, exists_const, pure_eq_ok]
    exact ⟨(), by decide, hno, by rw [hdomain₂, hleaf]; rfl⟩
  · rw [show h₂.root 1 = sparseEncodeDigest (rootDigest h₂ 1) from rfl, hroot] at hverify
    obtain ⟨-, -, bitmap, -, hclimb⟩ := verifySparse_climb hverify
    have hquiet := loudness_root_le hr₁
    rw [← hclimb] at hquiet
    have hloud : loudness (answerDigest proof.domain proof.key (some [2])) = 2 :=
      loudness_leafHash proof.domain proof.key _ [] 2
    have := le_trans (loudness_climb_ge sparseDepth _) hquiet
    omega

end Stale

end ChainLab.Proof
