import ChainLab.Lib.Action

/-! Computations that change the state once more when they stop with an error: deferred handlers and rollbacks. -/

namespace ChainLab.Lib.Action

variable {σ ε α β : Type}

/-- Run a handler on the state that an error leaves; the error stays. -/
def onError (x : Action σ ε α) (handler : ε → σ → σ) : Action σ ε α := fun s =>
  match x s with
  | (.ok a, s') => (.ok a, s')
  | (.error err, s') => (.error err, handler err s')

/-- A stateless outcome that is not an error leaves the state. -/
theorem lift_returns {outcome : Except ε α} {a : α} {s s' : σ} :
    (lift outcome : Action σ ε α) s = (.ok a, s') ↔ outcome = .ok a ∧ s = s' := by
  rw [lift, Prod.mk.injEq]

/-- Take the error of a computation as its value; the state it leaves stays. -/
def attempt (x : Action σ ε α) : Action σ ε (Except ε α) := fun s => (.ok (x s).1, (x s).2)

theorem Triple.onError {P : σ → Prop} {x : Action σ ε α} {handler : ε → σ → σ} {Q : α → σ → Prop}
    {E E' : ε → σ → Prop} (h : Triple P x Q E') (hhandler : ∀ err s, E' err s → E err (handler err s)) :
    Triple P (x.onError handler) Q E := by
  intro s hs
  obtain ⟨hok, herr⟩ := h s hs
  unfold Action.onError
  cases hrun : x s with
  | mk outcome s1 =>
    cases outcome with
    | ok a =>
      refine ⟨fun b s' heq => ?_, fun e s' heq => ?_⟩
      · cases heq
        exact hok a s1 hrun
      · cases heq
    | error err =>
      refine ⟨fun b s' heq => ?_, fun e s' heq => ?_⟩
      · cases heq
      · cases heq
        exact hhandler err s1 (herr err s1 hrun)

theorem Triple.attempt {P : σ → Prop} {x : Action σ ε α} {Q : α → σ → Prop} {E E' : ε → σ → Prop}
    (h : Triple P x Q E') :
    Triple P x.attempt (fun outcome s => (∀ a, outcome = .ok a → Q a s) ∧ ∀ err, outcome = .error err → E' err s) E := by
  intro s hs
  obtain ⟨hok, herr⟩ := h s hs
  unfold Action.attempt
  refine ⟨fun outcome s' heq => ?_, fun e s' heq => ?_⟩
  · cases heq
    exact ⟨fun a ha => hok a _ (Prod.ext ha rfl), fun err herror => herr err _ (Prod.ext herror rfl)⟩
  · cases heq

/-- A write before the rest: the rest runs from the state that was written. -/
theorem Triple.modify_bind {P : σ → Prop} {g : σ → σ} {f : Unit → Action σ ε β} {R : β → σ → Prop}
    {E : ε → σ → Prop} (h : ∀ s, P s → Triple (fun s' => s' = g s) (f ()) R E) :
    Triple P (Action.modify g >>= f) R E :=
  fun s hs => h s hs (g s) rfl

/-- A stateless outcome whose error runs a handler, before the rest. -/
theorem Triple.lift_onError_bind {P : σ → Prop} {outcome : Except ε α} {handler : ε → σ → σ} {f : α → Action σ ε β}
    {R : β → σ → Prop} {E : ε → σ → Prop} (hok : ∀ a, outcome = .ok a → Triple P (f a) R E)
    (herr : ∀ err, outcome = .error err → ∀ s, P s → E err (handler err s)) :
    Triple P ((Action.lift outcome).onError handler >>= f) R E := by
  cases outcome with
  | ok a => exact fun s hs => hok a rfl s hs
  | error err =>
    refine fun s hs => ⟨fun b s' heq => ?_, fun e s' heq => ?_⟩
    · cases heq
    · cases heq
      exact herr err rfl s hs

theorem Keeps.triple {I : σ → Prop} {x : Action σ ε α} (h : Keeps I x) : Triple I x (fun _ => I) fun _ => I := by
  intro s hs
  have hafter := h s hs
  refine ⟨fun a s' heq => ?_, fun e s' heq => ?_⟩
  · rw [heq] at hafter
    exact hafter
  · rw [heq] at hafter
    exact hafter

/-- What both postconditions give holds of the state that is left. -/
theorem Triple.leaves {P R : σ → Prop} {x : Action σ ε α} {Q : α → σ → Prop} {E : ε → σ → Prop} {s : σ}
    (h : Triple P x Q E) (hs : P s) (hok : ∀ a s', Q a s' → R s') (herr : ∀ err s', E err s' → R s') : R (x s).2 := by
  obtain ⟨hQ, hE⟩ := h s hs
  cases hrun : x s with
  | mk outcome s' =>
    cases outcome with
    | ok a => exact hok a s' (hQ a s' hrun)
    | error err => exact herr err s' (hE err s' hrun)

theorem Keeps.attempt {I : σ → Prop} {x : Action σ ε α} (h : Keeps I x) : Keeps I x.attempt :=
  fun s hs => h s hs

end ChainLab.Lib.Action
