import ChainLab.Lib.Outcome

/-! The invariant rule for loops that may stop with an error. -/

namespace ChainLab.Lib

variable {ε α β : Type}

/-- What holds at the start of a loop and is kept by each of its rounds holds at its end. -/
theorem foldlM_keeps (P : β → Prop) {round : β → α → Except ε β} (items : List α)
    (hround : ∀ b item b', item ∈ items → P b → round b item = .ok b' → P b') :
    ∀ {init final : β}, P init → items.foldlM round init = .ok final → P final := by
  induction items with
  | nil =>
    intro init final hinit hfold
    cases hfold
    exact hinit
  | cons item rest ih =>
    intro init final hinit hfold
    rw [List.foldlM_cons, bind_ok] at hfold
    obtain ⟨next, hnext, hfold⟩ := hfold
    exact ih (fun b item b' hmem => hround b item b' (List.mem_cons_of_mem _ hmem))
      (hround init item next List.mem_cons_self hinit hnext) hfold

/-- In a loop that ends, every item had its round. -/
theorem foldlM_visits {round : β → α → Except ε β} (items : List α) :
    ∀ {init final : β}, items.foldlM round init = .ok final →
      ∀ item ∈ items, ∃ b b', round b item = .ok b' := by
  induction items with
  | nil => exact fun _ item hitem => (nomatch hitem)
  | cons first rest ih =>
    intro init final hfold item hitem
    rw [List.foldlM_cons, bind_ok] at hfold
    obtain ⟨next, hnext, hfold⟩ := hfold
    rcases List.mem_cons.mp hitem with rfl | hitem
    · exact ⟨init, next, hnext⟩
    · exact ih hfold item hitem

end ChainLab.Lib
