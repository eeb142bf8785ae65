import Mathlib

/-! Binary search as `sort.Search` does it, and the window that two searches cut out of an ordered list. -/

namespace ChainLab.Lib

/-- The loop of `sort.Search`. -/
def searchBetween (holds : Nat → Bool) (low high : Nat) : Nat :=
  if low < high then
    if holds ((low + high) / 2) then searchBetween holds low ((low + high) / 2)
    else searchBetween holds ((low + high) / 2 + 1) high
  else low
termination_by high - low
decreasing_by all_goals omega

/-- `sort.Search`. -/
def sortSearch (n : Nat) (holds : Nat → Bool) : Nat := searchBetween holds 0 n

section Indices

variable {holds : Nat → Bool} {n : Nat}

/-- Where what is searched for stays true once it is true, the search ends at the first index of that kind. -/
theorem searchBetween_spec (hmono : ∀ i j, i ≤ j → j < n → holds i = true → holds j = true) (low high : Nat)
    (hle : low ≤ high) (hhigh : high ≤ n) (hbelow : ∀ i < low, holds i = false)
    (habove : ∀ i, high ≤ i → i < n → holds i = true) :
    searchBetween holds low high ≤ n ∧ (∀ i < searchBetween holds low high, holds i = false) ∧
      ∀ i, searchBetween holds low high ≤ i → i < n → holds i = true := by
  induction low, high using searchBetween.induct holds with
  | case1 low high hlt hmiddle ih =>
    rw [searchBetween, if_pos hlt, if_pos hmiddle]
    refine ih (by omega) (by omega) hbelow fun i hi hn => ?_
    exact hmono _ i hi hn hmiddle
  | case2 low high hlt hmiddle ih =>
    rw [searchBetween, if_pos hlt, if_neg hmiddle]
    refine ih (by omega) hhigh (fun i hi => ?_) habove
    by_contra hholds
    exact hmiddle (hmono i _ (by omega) (by omega) (by simpa using hholds))
  | case3 low high hlt =>
    rw [searchBetween, if_neg hlt]
    exact ⟨by omega, hbelow, fun i hi hn => habove i (by omega) hn⟩

theorem sortSearch_spec (hmono : ∀ i j, i ≤ j → j < n → holds i = true → holds j = true) :
    sortSearch n holds ≤ n ∧ (∀ i < sortSearch n holds, holds i = false) ∧ ∀ i, sortSearch n holds ≤ i → i < n → holds i = true :=
  searchBetween_spec hmono 0 n (Nat.zero_le n) le_rfl (fun i hi => absurd hi (Nat.not_lt_zero i))
    fun _ hi hn => absurd hn (Nat.not_lt.mpr hi)

end Indices

section Lists

variable {α : Type} {l : List α} {p : α → Bool}

/-- A list in which `p` stays true once it is true: first those without `p`, then those with it. -/
theorem eq_filter_append (h : l.Pairwise fun a b => p a = true → p b = true) :
    l = (l.filter fun a => !p a) ++ l.filter p := by
  induction l with
  | nil => rfl
  | cons a l ih =>
    obtain ⟨hfirst, hrest⟩ := List.pairwise_cons.mp h
    by_cases ha : p a = true
    · have hall : ∀ b ∈ l, p b = true := fun b hb => hfirst b hb ha
      have hnone : (l.filter fun a => !p a) = [] := List.filter_eq_nil_iff.mpr fun b hb => by simp [hall b hb]
      rw [List.filter_cons_of_neg (by simp [ha]), List.filter_cons_of_pos ha, hnone, List.filter_eq_self.mpr hall]
      rfl
    · rw [List.filter_cons_of_pos (by simpa using ha), List.filter_cons_of_neg ha, List.cons_append, ← ih hrest]

/-- The search finds the number of items before the first one with `p`. -/
theorem sortSearch_eq_countP (h : l.Pairwise fun a b => p a = true → p b = true) :
    sortSearch l.length (fun i => (l[i]?).any p) = l.countP fun a => !p a := by
  have hmono : ∀ i j, i ≤ j → j < l.length → (l[i]?).any p = true → (l[j]?).any p = true := by
    intro i j hij hj hi
    rcases Nat.eq_or_lt_of_le hij with rfl | hlt
    · exact hi
    · rw [List.getElem?_eq_getElem (hlt.trans hj), Option.any_some] at hi
      rw [List.getElem?_eq_getElem hj, Option.any_some]
      exact List.pairwise_iff_getElem.mp h i j (hlt.trans hj) hj hlt hi
  obtain ⟨hle, hbelow, habove⟩ := sortSearch_spec hmono
  generalize sortSearch l.length (fun i => (l[i]?).any p) = found at hle hbelow habove ⊢
  have hbefore : ∀ a ∈ l.take found, (!p a) = true := by
    intro a ha
    obtain ⟨i, hi, rfl⟩ := List.mem_take_iff_getElem.mp ha
    have hp := hbelow i (by omega)
    rw [List.getElem?_eq_getElem (by omega), Option.any_some] at hp
    rw [hp, Bool.not_false]
  have hafter : ∀ a ∈ l.drop found, ¬(!p a) = true := by
    intro a ha
    obtain ⟨i, hi, rfl⟩ := List.mem_drop_iff_getElem.mp ha
    have hp := habove (found + i) (Nat.le_add_right _ i) (by omega)
    rw [List.getElem?_eq_getElem (by omega), Option.any_some] at hp
    rw [hp]
    exact Bool.false_ne_true
  conv_rhs => rw [← List.take_append_drop found l]
  rw [List.countP_append, List.countP_eq_length.mpr hbefore, List.countP_eq_zero.mpr hafter, List.length_take,
    Nat.min_eq_left hle, Nat.add_zero]

/-- Two searches cut out what is past the lower bound and not past the upper one. -/
theorem window_eq_filter {lower upper : α → Bool} (hlower : l.Pairwise fun a b => lower a = true → lower b = true)
    (hupper : l.Pairwise fun a b => upper a = true → upper b = true) (hle : ∀ a, upper a = true → lower a = true) :
    (l.take (sortSearch l.length fun i => (l[i]?).any upper)).drop (sortSearch l.length fun i => (l[i]?).any lower) =
      l.filter fun a => lower a && !upper a := by
  have htake : l.take (sortSearch l.length fun i => (l[i]?).any upper) = l.filter fun a => !upper a := by
    rw [sortSearch_eq_countP hupper, List.countP_eq_length_filter]
    nth_rewrite 2 [eq_filter_append hupper]
    exact List.take_left
  have hbelow : ((l.filter fun a => !upper a).filter fun a => !lower a) = l.filter fun a => !lower a := by
    rw [List.filter_filter]
    apply List.filter_congr
    intro a _
    cases hlow : lower a with
    | true => rfl
    | false =>
      have hup : upper a = false := by
        by_contra hup
        rw [hle a (by simpa using hup)] at hlow
        cases hlow
      rw [hup]
      rfl
  rw [htake, sortSearch_eq_countP hlower, List.countP_eq_length_filter, ← hbelow]
  nth_rewrite 2 [eq_filter_append (hlower.sublist List.filter_sublist)]
  rw [List.drop_left, List.filter_filter]

end Lists

end ChainLab.Lib
