import Mathlib

/-! Binary hash trees kept as levels: pairing a level into the one above, the siblings along an index, and
what a climb along given siblings to the top of a tree proves about where it started. -/

namespace ChainLab.Lib.MerkleLevels

variable {D E : Type} (hash : E → D) (encode : D → D → E)

/-- The encodings of the pairs of a level. -/
def pairs : List D → List E
  | [] => []
  | [_] => []
  | l :: r :: rest => encode l r :: pairs rest

/-- The level above. -/
def parents (nodes : List D) : List D := (pairs encode nodes).map hash

/-- Pair levels until one node is left, in at most `rounds` rounds. -/
def collapse : Nat → List D → List D
  | 0, nodes => nodes
  | rounds + 1, nodes => if nodes.length > 1 then collapse rounds (parents hash encode nodes) else nodes

/-- The siblings of a position on the way up. -/
def siblings : Nat → List D → Nat → List (Option D)
  | 0, _, _ => []
  | rounds + 1, nodes, position =>
    if nodes.length > 1 then
      nodes[position ^^^ 1]? :: siblings rounds (parents hash encode nodes) (position / 2)
    else []

/-- A node and its sibling in the order their positions give. -/
def ordered (position : Nat) (current sibling : D) : E :=
  if position % 2 = 0 then encode current sibling else encode sibling current

/-- What a climb hashes. -/
def climbEncodings : List D → Nat → D → List E
  | [], _, _ => []
  | sibling :: rest, position, current =>
    ordered encode position current sibling ::
      climbEncodings rest (position / 2) (hash (ordered encode position current sibling))

/-- Climbing from a position with the given siblings. -/
def climb : List D → Nat → D → D
  | [], _, current => current
  | sibling :: rest, position, current =>
    climb rest (position / 2) (hash (ordered encode position current sibling))

/-- What pairing all levels hashes. -/
def levelEncodings : Nat → List D → List E
  | 0, _ => []
  | height + 1, nodes => pairs encode nodes ++ levelEncodings height (parents hash encode nodes)

variable {hash encode}

theorem length_pairs (nodes : List D) : (pairs encode nodes).length = nodes.length / 2 := by
  induction nodes using pairs.induct with
  | case1 => simp [pairs]
  | case2 node => simp [pairs]
  | case3 l r rest ih => simp only [pairs, List.length_cons, ih]; omega

theorem length_parents {height : Nat} {nodes : List D} (h : nodes.length = 2 ^ (height + 1)) :
    (parents hash encode nodes).length = 2 ^ height := by
  rw [parents, List.length_map, length_pairs, h, Nat.pow_succ]
  omega

theorem getElem?_pairs (nodes : List D) (i : Nat) {l r : D} (hl : nodes[2 * i]? = some l)
    (hr : nodes[2 * i + 1]? = some r) : (pairs encode nodes)[i]? = some (encode l r) := by
  induction nodes using pairs.induct generalizing i with
  | case1 => simp at hl
  | case2 node => simp at hr
  | case3 x y rest ih =>
    cases i with
    | zero =>
      simp only [Nat.mul_zero, List.getElem?_cons_zero, Nat.zero_add, List.getElem?_cons_succ,
        Option.some.injEq] at hl hr
      simp [pairs, hl, hr]
    | succ i =>
      rw [pairs, List.getElem?_cons_succ]
      apply ih
      · simpa [Nat.mul_succ] using hl
      · simpa [Nat.mul_succ] using hr

/-- The two nodes under a parent, seen from either of them. -/
theorem getElem?_pairs_ordered {nodes : List D} {position : Nat} {current sibling : D}
    (hc : nodes[position]? = some current) (hs : nodes[position ^^^ 1]? = some sibling) :
    (pairs encode nodes)[position / 2]? = some (ordered encode position current sibling) := by
  have heven : ∀ i, (2 * i) ^^^ 1 = 2 * i + 1 := fun i => Nat.xor_one_of_even (even_two_mul i)
  unfold ordered
  rcases Nat.even_or_odd' position with ⟨i, rfl | rfl⟩
  · rw [heven] at hs
    rw [if_pos (by omega), show 2 * i / 2 = i by omega]
    exact getElem?_pairs nodes i hc hs
  · have hodd : (2 * i + 1) ^^^ 1 = 2 * i := by rw [← heven, Nat.xor_assoc, Nat.xor_self, Nat.xor_zero]
    rw [hodd] at hs
    rw [if_neg (by omega), show (2 * i + 1) / 2 = i by omega]
    exact getElem?_pairs nodes i hs hc

theorem xor_one_lt {position height : Nat} (h : position < 2 ^ (height + 1)) :
    position ^^^ 1 < 2 ^ (height + 1) := by
  exact Nat.xor_lt_two_pow h (Nat.one_lt_two_pow (by omega))

/-- A level of `2 ^ height` nodes collapses to its top. -/
theorem collapse_succ {rounds height : Nat} {nodes : List D} (h : nodes.length = 2 ^ (height + 1)) :
    collapse hash encode (rounds + 1) nodes = collapse hash encode rounds (parents hash encode nodes) := by
  rw [collapse, if_pos]
  rw [h]
  exact Nat.one_lt_two_pow (by omega)

theorem length_collapse {rounds height : Nat} {nodes : List D} (h : nodes.length = 2 ^ height)
    (hr : height ≤ rounds) : (collapse hash encode rounds nodes).length = 1 := by
  induction height generalizing rounds nodes with
  | zero =>
    cases rounds with
    | zero => simpa [collapse] using h
    | succ rounds => simp [collapse, h]
  | succ height ih =>
    obtain ⟨rounds, rfl⟩ : ∃ k, rounds = k + 1 := ⟨rounds - 1, by omega⟩
    rw [collapse_succ h]
    exact ih (length_parents h) (by omega)

theorem siblings_succ {rounds height : Nat} {nodes : List D} {position : Nat}
    (h : nodes.length = 2 ^ (height + 1)) : siblings hash encode (rounds + 1) nodes position =
      nodes[position ^^^ 1]? :: siblings hash encode rounds (parents hash encode nodes) (position / 2) := by
  rw [siblings, if_pos]
  rw [h]
  exact Nat.one_lt_two_pow (by omega)

theorem siblings_single {rounds : Nat} {nodes : List D} {position : Nat} (h : nodes.length = 1) :
    siblings hash encode rounds nodes position = [] := by
  cases rounds with
  | zero => rfl
  | succ rounds => simp [siblings, h]

/-- The siblings of a position exist on every level, and with them a climb ends in the top. -/
theorem climb_siblings {rounds height : Nat} {nodes : List D} {position : Nat} {current : D}
    (h : nodes.length = 2 ^ height) (hr : height ≤ rounds) (hc : nodes[position]? = some current) :
    ∃ path : List D, path.length = height ∧
      siblings hash encode rounds nodes position = path.map some ∧
      collapse hash encode rounds nodes = [climb hash encode path position current] := by
  induction height generalizing rounds nodes position current with
  | zero =>
    refine ⟨[], rfl, siblings_single (by simpa using h), ?_⟩
    obtain ⟨x, rfl⟩ := List.length_eq_one_iff.mp (by simpa using h : nodes.length = 1)
    have hpos : position = 0 := by
      have := (List.getElem?_eq_some_iff.mp hc).1
      simpa using this
    subst hpos
    simp only [List.getElem?_cons_zero, Option.some.injEq] at hc
    subst hc
    cases rounds <;> simp [collapse, climb]
  | succ height ih =>
    obtain ⟨rounds, rfl⟩ : ∃ k, rounds = k + 1 := ⟨rounds - 1, by omega⟩
    have hpos : position < 2 ^ (height + 1) := by
      rw [← h]
      exact (List.getElem?_eq_some_iff.mp hc).1
    obtain ⟨sibling, hs⟩ : ∃ sibling, nodes[position ^^^ 1]? = some sibling := by
      refine ⟨_, List.getElem?_eq_getElem ?_⟩
      rw [h]
      exact xor_one_lt hpos
    have hparent : (parents hash encode nodes)[position / 2]? =
        some (hash (ordered encode position current sibling)) := by
      rw [parents, List.getElem?_map, getElem?_pairs_ordered hc hs]
      rfl
    obtain ⟨path, hlen, hpath, htop⟩ := ih (length_parents h) (by omega : height ≤ rounds) hparent
    refine ⟨sibling :: path, by simp [hlen], ?_, ?_⟩
    · rw [siblings_succ h, hs, hpath, List.map_cons]
    · rw [collapse_succ h, htop, climb]

/-- Two different encodings among those listed have one hash value. -/
def Collision (hash : E → D) (xs ys : List E) : Prop := ∃ x ∈ xs, ∃ y ∈ ys, x ≠ y ∧ hash x = hash y

theorem Collision.mono {xs xs' ys ys' : List E} (h : Collision hash xs ys) (hx : xs ⊆ xs') (hy : ys ⊆ ys') :
    Collision hash xs' ys' := by
  obtain ⟨x, hxm, y, hym, hne⟩ := h
  exact ⟨x, hx hxm, y, hy hym, hne⟩

/-- A climb of the tree's height that ends in its top started from the tree's own node at its position,
or something it hashed collides with something the tree hashed. -/
theorem climb_pins {rounds height : Nat} {nodes path : List D} {position : Nat} {current : D}
    (hinj : ∀ l r l' r', encode l r = encode l' r' → l = l' ∧ r = r') (h : nodes.length = 2 ^ height)
    (hr : height ≤ rounds) (hpos : position < 2 ^ height) (hpath : path.length = height)
    (htop : collapse hash encode rounds nodes = [climb hash encode path position current]) :
    nodes[position]? = some current ∨
      Collision hash (climbEncodings hash encode path position current) (levelEncodings hash encode height nodes) := by
  induction height generalizing rounds nodes path position current with
  | zero =>
    left
    obtain ⟨x, rfl⟩ := List.length_eq_one_iff.mp (by simpa using h : nodes.length = 1)
    obtain rfl : path = [] := List.eq_nil_of_length_eq_zero hpath
    obtain rfl : position = 0 := by simpa using hpos
    cases rounds <;> simpa [collapse, climb] using htop
  | succ height ih =>
    obtain ⟨rounds, rfl⟩ : ∃ k, rounds = k + 1 := ⟨rounds - 1, by omega⟩
    obtain ⟨sibling, path, rfl⟩ := List.exists_cons_of_length_eq_add_one hpath
    rw [collapse_succ h, climb] at htop
    have hhalf : position / 2 < 2 ^ height := by rw [Nat.pow_succ] at hpos; omega
    obtain hparent | hcollision :=
      ih (length_parents h) (by omega : height ≤ rounds) hhalf (by simpa using hpath) htop
    · -- the tree's own pair above the position
      obtain ⟨own, hown⟩ : ∃ own, nodes[position]? = some own :=
        ⟨_, List.getElem?_eq_getElem (by rw [h]; exact hpos)⟩
      obtain ⟨beside, hbeside⟩ : ∃ beside, nodes[position ^^^ 1]? = some beside :=
        ⟨_, List.getElem?_eq_getElem (by rw [h]; exact xor_one_lt hpos)⟩
      have hpair : (pairs encode nodes)[position / 2]? = some (ordered encode position own beside) :=
        getElem?_pairs_ordered hown hbeside
      rw [parents, List.getElem?_map, hpair, Option.map_some, Option.some.injEq] at hparent
      by_cases heq : ordered encode position current sibling = ordered encode position own beside
      · left
        rw [hown, Option.some.injEq]
        unfold ordered at heq
        split at heq
        · exact (hinj _ _ _ _ heq).1.symm
        · exact (hinj _ _ _ _ heq).2.symm
      · right
        refine ⟨ordered encode position current sibling, ?_, ordered encode position own beside, ?_, heq,
          hparent.symm⟩
        · rw [climbEncodings]
          exact List.mem_cons_self ..
        · rw [levelEncodings]
          exact List.mem_append_left _ (List.mem_of_getElem? hpair)
    · right
      refine hcollision.mono ?_ ?_
      · rw [climbEncodings]
        exact List.subset_cons_self ..
      · rw [levelEncodings]
        exact List.subset_append_right ..

/-- Above the leaves, the top is the hash of an encoded pair. -/
theorem collapse_eq_hash {rounds height : Nat} {nodes : List D} (h : nodes.length = 2 ^ (height + 1))
    (hr : height + 1 ≤ rounds) : ∃ l r, encode l r ∈ levelEncodings hash encode (height + 1) nodes ∧
      collapse hash encode rounds nodes = [hash (encode l r)] := by
  induction height generalizing rounds nodes with
  | zero =>
    obtain ⟨rounds, rfl⟩ : ∃ k, rounds = k + 1 := ⟨rounds - 1, by omega⟩
    obtain ⟨l, r, rfl⟩ := List.length_eq_two.mp (by simpa using h : nodes.length = 2)
    refine ⟨l, r, by simp [levelEncodings, pairs], ?_⟩
    rw [collapse_succ h]
    cases rounds <;> simp [collapse, parents, pairs]
  | succ height ih =>
    obtain ⟨rounds, rfl⟩ : ∃ k, rounds = k + 1 := ⟨rounds - 1, by omega⟩
    obtain ⟨l, r, hmem, htop⟩ := ih (length_parents h) (by omega : height + 1 ≤ rounds)
    refine ⟨l, r, ?_, ?_⟩
    · rw [levelEncodings]
      exact List.mem_append_right _ hmem
    · rw [collapse_succ h, htop]

/-- A climb of at least one step ends in the hash of an encoded pair. -/
theorem climb_eq_hash {path : List D} {position : Nat} {current : D} (hne : path ≠ []) :
    ∃ l r, encode l r ∈ climbEncodings hash encode path position current ∧
      climb hash encode path position current = hash (encode l r) := by
  induction path generalizing position current with
  | nil => exact absurd rfl hne
  | cons sibling rest ih =>
    by_cases hrest : rest = []
    · subst hrest
      simp only [climb, climbEncodings, List.mem_singleton]
      unfold ordered
      split
      · exact ⟨_, _, rfl, rfl⟩
      · exact ⟨_, _, rfl, rfl⟩
    · obtain ⟨l, r, hmem, htop⟩ := @ih (position / 2) (hash (ordered encode position current sibling)) hrest
      exact ⟨l, r, List.mem_cons_of_mem _ hmem, htop⟩

end ChainLab.Lib.MerkleLevels
