import Mathlib

/-! Paths along a relation, and the number of points on the longest one from a given start. -/

namespace ChainLab.Lib

open Relation

variable {α : Type} {R : α → α → Prop}

/-- The longest path from `a` visits `d` points. -/
structure LongestPath (R : α → α → Prop) (a : α) (d : Nat) : Prop where
  bound : ∀ rest, (a :: rest).IsChain R → rest.length + 1 ≤ d
  attained : ∃ rest, (a :: rest).IsChain R ∧ rest.length + 1 = d

/-- The longest path from a point is one longer than the longest from a successor. -/
theorem LongestPath.of_successors {a : α} {d : Nat} (hpos : 1 ≤ d)
    (hle : ∀ b, R a b → ∃ e, LongestPath R b e ∧ e + 1 ≤ d)
    (hattained : d = 1 ∨ ∃ b e, R a b ∧ LongestPath R b e ∧ d = e + 1) : LongestPath R a d where
  bound rest hchain := by
    cases rest with
    | nil => exact hpos
    | cons b rest =>
      obtain ⟨hab, hrest⟩ := List.isChain_cons_cons.mp hchain
      obtain ⟨e, he, hed⟩ := hle b hab
      have := he.bound rest hrest
      rw [List.length_cons]
      omega
  attained := by
    rcases hattained with rfl | ⟨b, e, hab, he, rfl⟩
    · exact ⟨[], .singleton a, rfl⟩
    · obtain ⟨rest, hrest, hlength⟩ := he.attained
      exact ⟨b :: rest, List.isChain_cons_cons.mpr ⟨hab, hrest⟩, by rw [List.length_cons, hlength]⟩

/-- From a point on a cycle there are paths of every length. -/
theorem exists_chain_of_cycle {a : α} (hcycle : TransGen R a a) (n : Nat) :
    ∀ b, TransGen R b a → ∃ rest, (b :: rest).IsChain R ∧ rest.length = n := by
  induction n with
  | zero => exact fun b _ => ⟨[], .singleton b, rfl⟩
  | succ n ih =>
    intro b hb
    obtain ⟨c, hbc, hca⟩ := TransGen.head'_iff.mp hb
    have hca : TransGen R c a := by
      rcases reflTransGen_iff_eq_or_transGen.mp hca with rfl | hca
      · exact hcycle
      · exact hca
    obtain ⟨rest, hchain, hlength⟩ := ih c hca
    exact ⟨c :: rest, List.isChain_cons_cons.mpr ⟨hbc, hchain⟩, by rw [List.length_cons, hlength]⟩

theorem LongestPath.no_cycle {a : α} {d : Nat} (h : LongestPath R a d) : ¬TransGen R a a := by
  intro hcycle
  obtain ⟨rest, hchain, hlength⟩ := exists_chain_of_cycle hcycle d a hcycle
  have := h.bound rest hchain
  omega

/-- A list read backwards along a relation leads from each of its points to its head. -/
theorem reflTransGen_head {a : α} {rest : List α} (hchain : (a :: rest).IsChain fun x y => R y x) {b : α}
    (hb : b ∈ a :: rest) : ReflTransGen R b a := by
  induction rest generalizing a with
  | nil => rw [List.mem_singleton.mp hb]
  | cons c rest ih =>
    obtain ⟨hca, hrest⟩ := List.isChain_cons_cons.mp hchain
    rcases List.mem_cons.mp hb with rfl | hb
    · exact .refl
    · exact (ih hrest hb).tail hca

end ChainLab.Lib
