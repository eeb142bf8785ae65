import ChainLab.Lib.MerkleMap
import ChainLab.Proof.Sparse

/-! Node keys as bit prefixes, and what a stack of overlays answers. -/

namespace ChainLab.Proof

open ChainLab.Lib ChainLab.Lib.MerkleMap ChainLab.Types ChainLab.Crypto

/-! ### Node keys -/

section NodeKeys

variable {path other : List UInt8} {d : Nat}

@[simp] theorem depth_sparseNodeKeyAtDepth (path : List UInt8) (d : Nat) :
    (sparseNodeKeyAtDepth path d).depth = d := by
  unfold sparseNodeKeyAtDepth
  split
  · simp only; split <;> rfl
  · rfl

theorem length_sparseNodeKeyAtDepth (path : List UInt8) (d : Nat) :
    (sparseNodeKeyAtDepth path d).bits.length = path.length := by
  unfold sparseNodeKeyAtDepth
  split
  · simp only; split <;> simp
  · rfl

private theorem getD_mapIdx (path : List UInt8) (f : Nat → UInt8 → UInt8) (i : Nat) (hi : i < path.length) :
    (path.mapIdx f).getD i 0 = f i (path.getD i 0) := by
  rw [List.getD_eq_getElem?_getD, List.getElem?_mapIdx, List.getD_eq_getElem?_getD,
    List.getElem?_eq_getElem hi]
  rfl

/-- A node key keeps the bits above its depth and clears the others. -/
theorem bitAt_sparseNodeKeyAtDepth (hlen : path.length = 32) (hd : d ≤ 256) {j : Nat} (hj : j < 256) :
    bitAt (sparseNodeKeyAtDepth path d).bits j = (decide (j < d) && bitAt path j) := by
  have hbyte : j / 8 < path.length := by omega
  unfold sparseNodeKeyAtDepth
  by_cases hfull : d < sparseDepth
  · rw [if_pos hfull]
    simp only
    split
    · next hzero =>
      simp only [bitAt]
      rw [getD_mapIdx _ _ _ hbyte]
      by_cases hge : j / 8 ≥ d / 8
      · rw [if_pos hge, byteBit_zero, decide_eq_false (by omega), Bool.false_and]
      · rw [if_neg hge, decide_eq_true (by omega), Bool.true_and]
    · next hpos =>
      simp only [bitAt]
      rw [getD_mapIdx _ _ _ hbyte]
      by_cases heq : j / 8 = d / 8
      · rw [if_pos heq, byteBit_and_mask (Nat.mod_lt _ (by decide)) (Nat.pos_of_ne_zero hpos)
          (Nat.mod_lt _ (by decide)), Bool.and_comm]
        congr 1
        rw [decide_eq_decide]
        omega
      · rw [if_neg heq]
        by_cases hge : j / 8 ≥ d / 8 + 1
        · rw [if_pos hge, byteBit_zero, decide_eq_false (by omega), Bool.false_and]
        · rw [if_neg hge, decide_eq_true (by omega), Bool.true_and]
  · rw [if_neg hfull, decide_eq_true (by unfold sparseDepth at hfull; omega), Bool.true_and]

/-- Two paths have one node key at a depth exactly when they agree on the bits above it. -/
theorem sparseNodeKeyAtDepth_eq_iff (hlen : path.length = 32) (hlen' : other.length = 32) (hd : d ≤ 256) :
    sparseNodeKeyAtDepth path d = sparseNodeKeyAtDepth other d ↔ bitsUpTo path d = bitsUpTo other d := by
  rw [bitsUpTo_eq_iff]
  constructor
  · intro h j hj
    have hbits : bitAt (sparseNodeKeyAtDepth path d).bits j = bitAt (sparseNodeKeyAtDepth other d).bits j := by
      rw [h]
    rw [bitAt_sparseNodeKeyAtDepth hlen hd (by omega), bitAt_sparseNodeKeyAtDepth hlen' hd (by omega),
      decide_eq_true hj] at hbits
    simpa using hbits
  · intro h
    have hbits : (sparseNodeKeyAtDepth path d).bits = (sparseNodeKeyAtDepth other d).bits := by
      apply bytes_ext
      · rw [length_sparseNodeKeyAtDepth, length_sparseNodeKeyAtDepth, hlen, hlen']
      · intro j hj
        rw [length_sparseNodeKeyAtDepth, hlen] at hj
        rw [bitAt_sparseNodeKeyAtDepth hlen hd (by omega), bitAt_sparseNodeKeyAtDepth hlen' hd (by omega)]
        by_cases hjd : j < d
        · rw [h j hjd]
        · rw [decide_eq_false hjd, Bool.false_and, Bool.false_and]
    have hdepth : (sparseNodeKeyAtDepth path d).depth = (sparseNodeKeyAtDepth other d).depth := by simp
    cases hp : sparseNodeKeyAtDepth path d
    cases ho : sparseNodeKeyAtDepth other d
    rw [hp, ho] at hbits hdepth
    simp only at hbits hdepth
    rw [hbits, hdepth]

/-- The path that leaves `path` at depth `d`. -/
def flipBit (path : List UInt8) (d : Nat) : List UInt8 :=
  updateByte path (d / 8) (· ^^^ (1 <<< UInt8.ofNat (7 - d % 8)))

@[simp] theorem length_flipBit (path : List UInt8) (d : Nat) : (flipBit path d).length = path.length := by
  simp [flipBit, updateByte]

theorem bitAt_flipBit (hlen : path.length = 32) (hd : d < 256) (j : Nat) :
    bitAt (flipBit path d) j = (bitAt path j ^^ decide (j = d)) := by
  unfold flipBit
  rw [bitAt_updateByte _ _ (by omega)]
  split
  · next hj =>
    rw [byteBit_xor_single (Nat.mod_lt _ (by decide)) (Nat.mod_lt _ (by decide)), ← hj]
    unfold bitAt
    congr 1
    rw [decide_eq_decide]
    omega
  · next hj =>
    rw [decide_eq_false (fun h => hj (by rw [h])), Bool.xor_false]

theorem sparseSiblingNodeKey_eq (path : List UInt8) (d : Nat) :
    sparseSiblingNodeKey path d = sparseNodeKeyAtDepth (flipBit path d) (d + 1) := rfl

theorem bitsUpTo_flipBit (hlen : path.length = 32) (hd : d < 256) :
    bitsUpTo (flipBit path d) (d + 1) = bitsUpTo path d ++ [!bitAt path d] := by
  rw [bitsUpTo_succ]
  congr 1
  · rw [bitsUpTo_eq_iff]
    intro j hj
    rw [bitAt_flipBit hlen hd, decide_eq_false (by omega), Bool.xor_false]
  · rw [bitAt_flipBit hlen hd, decide_eq_true rfl, Bool.xor_true]

theorem sparsePathBit_eq_zero (path : List UInt8) (d : Nat) :
    sparsePathBit path d = 0 ↔ bitAt path d = false := by
  unfold sparsePathBit bitAt
  exact shift_and_one_eq_zero (Nat.mod_lt _ (by decide))

theorem sparseBitmapBit_eq (bitmap : List UInt8) (level : Nat) :
    sparseBitmapBit bitmap level = bitAt bitmap level := by
  unfold sparseBitmapBit bitAt
  rw [Bool.eq_iff_iff, decide_eq_true_eq]
  exact and_single_ne_zero (Nat.mod_lt _ (by decide))

theorem bitAt_setSparseBitmapBit {bitmap : List UInt8} {level : Nat} (hlen : bitmap.length = 32)
    (hl : level < 256) (j : Nat) :
    bitAt (setSparseBitmapBit bitmap level) j = (bitAt bitmap j || decide (j = level)) := by
  unfold setSparseBitmapBit
  rw [bitAt_updateByte _ _ (by omega)]
  split
  · next hj =>
    rw [byteBit_or_single (Nat.mod_lt _ (by decide)) (Nat.mod_lt _ (by decide)), ← hj]
    unfold bitAt
    congr 1
    rw [decide_eq_decide]
    omega
  · next hj =>
    rw [decide_eq_false (fun h => hj (by rw [h])), Bool.or_false]

end NodeKeys

/-! ### Objects and overlays -/

section Objects

variable {α : Type} {own : SparseTree → Option (Option α)} {objects : List SparseTree} {id other : Nat}
  {f g : SparseTree → SparseTree}

@[simp] theorem length_updateObject (f : SparseTree → SparseTree) (objects : List SparseTree) (id : Nat) :
    (updateObject f objects id).length = objects.length := by
  induction objects with
  | nil => rfl
  | cons t older ih =>
    rw [updateObject]
    split <;> simp [ih]

theorem object_updateObject (hid : id < objects.length) :
    object (updateObject f objects id) other = if other = id then f (object objects id) else object objects other := by
  induction objects with
  | nil => simp at hid
  | cons t older ih =>
    by_cases htop : id = older.length
    · rw [updateObject, if_pos htop, object, object, object]
      by_cases ho : other = older.length
      · simp [ho, htop]
      · simp [ho, htop]
    · have hlt : id < older.length := by simp only [List.length_cons] at hid; omega
      rw [updateObject, if_neg htop, object, object, object, length_updateObject, if_neg htop, ih hlt]
      by_cases ho : other = older.length
      · rw [if_pos ho, if_pos ho, if_neg (by omega)]
      · rw [if_neg ho, if_neg ho]

theorem updateObject_updateObject :
    updateObject f (updateObject g objects id) id = updateObject (f ∘ g) objects id := by
  induction objects with
  | nil => rfl
  | cons t older ih =>
    by_cases htop : id = older.length
    · rw [updateObject, if_pos htop, updateObject, if_pos htop, updateObject, if_pos htop]; rfl
    · rw [updateObject, if_neg htop, updateObject, length_updateObject, if_neg htop, ih, updateObject, if_neg htop]

/-- Every parent is older than its clone. -/
def ParentsOlder : List SparseTree → Prop
  | [] => True
  | t :: older => (∀ parent ∈ t.parent, parent < older.length) ∧ ParentsOlder older

theorem resolve_cons_of_lt {t : SparseTree} (hid : id < objects.length) :
    resolve own (t :: objects) id = resolve own objects id := by
  rw [resolve, if_neg (by omega)]

theorem ancestors_cons_of_lt {t : SparseTree} (hid : id < objects.length) :
    ancestors (t :: objects) id = ancestors objects id := by
  rw [ancestors, if_neg (by omega)]

theorem object_cons_of_lt {t : SparseTree} (hid : id < objects.length) :
    object (t :: objects) id = object objects id := by
  rw [object, if_neg (by omega)]

theorem parent_lt (hp : ParentsOlder objects) (hid : id < objects.length) {parent : Nat}
    (h : (object objects id).parent = some parent) : parent < id := by
  induction objects with
  | nil => simp at hid
  | cons t older ih =>
    by_cases htop : id = older.length
    · rw [object, if_pos htop] at h
      rw [htop]
      exact hp.1 parent h
    · have hlt : id < older.length := by simp only [List.length_cons] at hid; omega
      rw [object_cons_of_lt hlt] at h
      exact ih hp.2 hlt h

/-- An object answers itself, or its parent does. -/
theorem resolve_eq (hp : ParentsOlder objects) (hid : id < objects.length) :
    resolve own objects id = (own (object objects id)).getD
      ((object objects id).parent.bind fun parent => resolve own objects parent) := by
  induction objects with
  | nil => simp at hid
  | cons t older ih =>
    by_cases htop : id = older.length
    · rw [resolve, if_pos htop, object, if_pos htop]
      cases hown : own t with
      | some answer => rfl
      | none =>
        cases hparent : t.parent with
        | none => rfl
        | some parent =>
          have hlt := hp.1 parent hparent
          simp only [Option.bind_some, Option.getD_none]
          rw [resolve_cons_of_lt hlt]
    · have hlt : id < older.length := by simp only [List.length_cons] at hid; omega
      rw [resolve_cons_of_lt hlt, object_cons_of_lt hlt, ih hp.2 hlt]
      cases hparent : (object older id).parent with
      | none => rfl
      | some parent =>
        have := parent_lt hp.2 hlt hparent
        simp only [Option.bind_some]
        rw [resolve_cons_of_lt (by omega)]

theorem ancestors_eq (hp : ParentsOlder objects) (hid : id < objects.length) :
    ancestors objects id = id :: ((object objects id).parent.elim [] fun parent => ancestors objects parent) := by
  induction objects with
  | nil => simp at hid
  | cons t older ih =>
    by_cases htop : id = older.length
    · rw [ancestors, if_pos htop, object, if_pos htop]
      cases hparent : t.parent with
      | none => rfl
      | some parent =>
        have hlt := hp.1 parent hparent
        simp only [Option.elim_some]
        rw [ancestors_cons_of_lt hlt]
    · have hlt : id < older.length := by simp only [List.length_cons] at hid; omega
      rw [ancestors_cons_of_lt hlt, object_cons_of_lt hlt, ih hp.2 hlt]
      cases hparent : (object older id).parent with
      | none => rfl
      | some parent =>
        have := parent_lt hp.2 hlt hparent
        simp only [Option.elim_some]
        rw [ancestors_cons_of_lt (by omega)]

/-- A write that is not to an object or to one of the trees below it changes none of its answers. -/
theorem resolve_updateObject_of_not_mem (h : id ∉ ancestors objects other) :
    resolve own (updateObject f objects id) other = resolve own objects other := by
  induction objects generalizing other with
  | nil => rfl
  | cons t older ih =>
    by_cases htop : id = older.length
    · rw [updateObject, if_pos htop, resolve, resolve]
      by_cases ho : other = older.length
      · rw [ancestors, if_pos ho, ho, htop] at h
        simp at h
      · rw [if_neg ho, if_neg ho]
    · rw [updateObject, if_neg htop, resolve, resolve, length_updateObject]
      by_cases ho : other = older.length
      · rw [ancestors, if_pos ho] at h
        rw [if_pos ho, if_pos ho]
        cases own t with
        | some answer => rfl
        | none =>
          cases hparent : t.parent with
          | none => rfl
          | some parent =>
            rw [hparent] at h
            exact ih fun hmem => h (List.mem_cons_of_mem _ hmem)
      · rw [ancestors, if_neg ho] at h
        rw [if_neg ho, if_neg ho]
        exact ih h

theorem parentsOlder_updateObject (hf : ∀ t, (f t).parent = t.parent) (hp : ParentsOlder objects) :
    ParentsOlder (updateObject f objects id) := by
  induction objects with
  | nil => trivial
  | cons t older ih =>
    rw [updateObject]
    split
    · exact ⟨by rw [hf]; exact hp.1, hp.2⟩
    · exact ⟨by rw [length_updateObject]; exact hp.1, ih hp.2⟩

theorem ancestors_le (hp : ParentsOlder objects) {ancestor : Nat} (h : ancestor ∈ ancestors objects id) :
    ancestor ≤ id ∧ ancestor < objects.length := by
  induction objects generalizing id with
  | nil => simp [ancestors] at h
  | cons t older ih =>
    rw [ancestors] at h
    split at h
    · next htop =>
      rcases List.mem_cons.mp h with rfl | h
      · exact ⟨Nat.le_refl _, by simp [htop]⟩
      · cases hparent : t.parent with
        | none => rw [hparent] at h; simp at h
        | some parent =>
          rw [hparent] at h
          have hlt := hp.1 parent hparent
          have := ih hp.2 h
          simp only [List.length_cons]
          omega
    · have := ih hp.2 h
      simp only [List.length_cons]
      omega

/-- The answer of the written object itself. -/
theorem resolve_updateObject_self (hp : ParentsOlder objects) (hid : id < objects.length)
    (hf : ∀ t, (f t).parent = t.parent) :
    resolve own (updateObject f objects id) id = (own (f (object objects id))).getD
      ((object objects id).parent.bind fun parent => resolve own objects parent) := by
  rw [resolve_eq (parentsOlder_updateObject hf hp) (by simpa using hid), object_updateObject hid, if_pos rfl, hf]
  cases hparent : (object objects id).parent with
  | none => rfl
  | some parent =>
    have hlt := parent_lt hp hid hparent
    simp only [Option.bind_some]
    rw [resolve_updateObject_of_not_mem fun hmem => by
      have := (ancestors_le hp hmem).1
      omega]

end Objects

end ChainLab.Proof
