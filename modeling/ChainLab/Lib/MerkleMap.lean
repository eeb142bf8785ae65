import Mathlib

/-! Complete binary hash trees of a fixed height over bit paths: the digest of every subtree, climbing
from a leaf to the root, and what a climb to the right root proves. -/

namespace ChainLab.Lib.MerkleMap

variable {D : Type}

/-- The first `d` bits of a path. -/
def pathPrefix (bits : Nat → Bool) (d : Nat) : List Bool := (List.range d).map bits

@[simp] theorem length_pathPrefix (bits : Nat → Bool) (d : Nat) : (pathPrefix bits d).length = d := by
  simp [pathPrefix]

theorem pathPrefix_succ (bits : Nat → Bool) (d : Nat) :
    pathPrefix bits (d + 1) = pathPrefix bits d ++ [bits d] := by
  simp [pathPrefix, List.range_succ]

/-- A node and its sibling put together in the order the bit says. -/
def join {X : Type} (f : Nat → D → D → X) (d : Nat) (bit : Bool) (current sibling : D) : X :=
  if bit then f d sibling current else f d current sibling

section Subtree

variable (branch : Nat → D → D → D)

/-- The digest of the subtree of height `n` below a prefix. -/
def subtree (leaf : List Bool → D) : Nat → List Bool → D
  | 0, prefixBits => leaf prefixBits
  | n + 1, prefixBits => branch prefixBits.length (subtree leaf n (prefixBits ++ [false]))
      (subtree leaf n (prefixBits ++ [true]))

/-- A subtree depends on the leaves below its prefix only. -/
theorem subtree_congr {leaf leaf' : List Bool → D} {n : Nat} {prefixBits : List Bool}
    (h : ∀ rest : List Bool, rest.length = n → leaf (prefixBits ++ rest) = leaf' (prefixBits ++ rest)) :
    subtree branch leaf n prefixBits = subtree branch leaf' n prefixBits := by
  induction n generalizing prefixBits with
  | zero => simpa [subtree] using h [] rfl
  | succ n ih =>
    have hchild : ∀ bit, subtree branch leaf n (prefixBits ++ [bit]) = subtree branch leaf' n (prefixBits ++ [bit]) := by
      intro bit
      apply ih
      intro rest hrest
      simpa using h (bit :: rest) (by simp [hrest])
    simp only [subtree, hchild]

theorem subtree_succ (leaf : List Bool → D) (n : Nat) (prefixBits : List Bool) (bit : Bool) :
    subtree branch leaf (n + 1) prefixBits =
      join branch prefixBits.length bit (subtree branch leaf n (prefixBits ++ [bit]))
        (subtree branch leaf n (prefixBits ++ [!bit])) := by
  cases bit <;> rfl

/-- Climbing from depth `d` to the root with the given siblings. -/
def climb (bits : Nat → Bool) (siblings : Nat → D) : Nat → D → D
  | 0, current => current
  | d + 1, current => climb bits siblings d (join branch d (bits d) current (siblings d))

/-- With the tree's own siblings a climb ends in the tree's root. -/
theorem climb_subtree {leaf : List Bool → D} {bits : Nat → Bool} {siblings : Nat → D} {n d : Nat}
    (h : ∀ i < d, siblings i = subtree branch leaf (n + d - (i + 1)) (pathPrefix bits i ++ [!bits i])) :
    climb branch bits siblings d (subtree branch leaf n (pathPrefix bits d)) = subtree branch leaf (n + d) [] := by
  induction d generalizing n with
  | zero => rfl
  | succ d ih =>
    have hsibling : siblings d = subtree branch leaf n (pathPrefix bits d ++ [!bits d]) := by
      rw [h d (Nat.lt_succ_self d)]
      congr 1
      omega
    have hjoin : join branch d (bits d) (subtree branch leaf n (pathPrefix bits (d + 1))) (siblings d) =
        subtree branch leaf (n + 1) (pathPrefix bits d) := by
      rw [subtree_succ branch leaf n (pathPrefix bits d) (bits d), length_pathPrefix, hsibling, pathPrefix_succ]
    rw [climb, hjoin, ih]
    · congr 1
      omega
    · intro i hi
      rw [h i (by omega)]
      congr 1
      omega

end Subtree

section Soundness

variable {E : Type} (hash : E → D)

/-- The encodings hashed by a climb, from depth `d - 1` up to the root. -/
def climbEncodings (encode : Nat → D → D → E) (bits : Nat → Bool) (siblings : Nat → D) : Nat → D → List E
  | 0, _ => []
  | d + 1, current =>
    join encode d (bits d) current (siblings d) ::
      climbEncodings encode bits siblings d (hash (join encode d (bits d) current (siblings d)))

/-- The encodings of the nodes of a tree along a path, from depth `d - 1` up to the root. -/
def pathEncodings (encode : Nat → D → D → E) (node : List Bool → D) (bits : Nat → Bool) : Nat → List E
  | 0 => []
  | d + 1 => encode d (node (pathPrefix bits d ++ [false])) (node (pathPrefix bits d ++ [true])) ::
      pathEncodings encode node bits d

/-- Two lists of encodings hold, at one position, different texts of one hash value. -/
def Collides (xs ys : List E) : Prop := ∃ pair ∈ xs.zip ys, pair.1 ≠ pair.2 ∧ hash pair.1 = hash pair.2

theorem Collides.cons {xs ys : List E} {x y : E} (h : Collides hash xs ys) : Collides hash (x :: xs) (y :: ys) := by
  obtain ⟨pair, hmem, hne⟩ := h
  exact ⟨pair, by simp [hmem], hne⟩

theorem collides_head {xs ys : List E} {x y : E} (hne : x ≠ y) (h : hash x = hash y) :
    Collides hash (x :: xs) (y :: ys) := ⟨(x, y), by simp, hne, h⟩

/-- A climb that ends in the root of a tree starts from the tree's own digest, or one of the encodings
it hashed collides with the tree's at the same depth. -/
theorem climb_sound {encode encode' : Nat → D → D → E} {node : List Bool → D} {bits : Nat → Bool}
    {siblings : Nat → D} {d : Nat} {current : D}
    (hinj : ∀ i l r l' r', encode i l r = encode' i l' r' → l = l' ∧ r = r')
    (hnode : ∀ i < d, node (pathPrefix bits i) =
      hash (encode' i (node (pathPrefix bits i ++ [false])) (node (pathPrefix bits i ++ [true]))))
    (h : climb (fun i l r => hash (encode i l r)) bits siblings d current = node []) :
    current = node (pathPrefix bits d) ∨
      Collides hash (climbEncodings hash encode bits siblings d current) (pathEncodings encode' node bits d) := by
  induction d generalizing current with
  | zero => exact .inl h
  | succ d ih =>
    have hstep : join (fun i l r => hash (encode i l r)) d (bits d) current (siblings d) =
        hash (join encode d (bits d) current (siblings d)) := by
      unfold join
      split <;> rfl
    rw [climb, hstep] at h
    obtain heq | hcollides := ih (fun i hi => hnode i (by omega)) h
    · rw [hnode d (Nat.lt_succ_self d)] at heq
      by_cases henc : join encode d (bits d) current (siblings d) =
          encode' d (node (pathPrefix bits d ++ [false])) (node (pathPrefix bits d ++ [true]))
      · left
        unfold join at henc
        rw [pathPrefix_succ]
        cases hbit : bits d with
        | false =>
          rw [hbit, if_neg Bool.false_ne_true] at henc
          exact (hinj _ _ _ _ _ henc).1
        | true =>
          rw [hbit, if_pos rfl] at henc
          exact (hinj _ _ _ _ _ henc).2
      · exact .inr (collides_head hash henc heq)
    · exact .inr (hcollides.cons hash)

end Soundness

end ChainLab.Lib.MerkleMap
