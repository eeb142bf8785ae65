import Mathlib

/-! Computations over a state that may stop with an error and keep the state they had reached, with the
rules of pre- and postconditions for them. -/

namespace ChainLab.Lib

/-- A computation over `σ`: the value or the error it stops with, and the state it leaves. -/
def Action (σ ε α : Type) : Type := σ → Except ε α × σ

namespace Action

variable {σ ε α β : Type}

/-- Continue with the value of a finished computation; an error ends the whole. -/
def andThen (f : α → Action σ ε β) : Except ε α × σ → Except ε β × σ
  | (.ok a, s) => f a s
  | (.error e, s) => (.error e, s)

instance : Monad (Action σ ε) where
  pure a := fun s => (.ok a, s)
  bind x f := fun s => andThen f (x s)

/-- A stateless outcome as a computation. -/
def lift (outcome : Except ε α) : Action σ ε α := fun s => (outcome, s)

instance : MonadLift (Except ε) (Action σ ε) := ⟨lift⟩

/-- Stop with an error. -/
def fail (err : ε) : Action σ ε α := fun s => (.error err, s)

/-- Read the state. -/
def read (f : σ → α) : Action σ ε α := fun s => (.ok (f s), s)

/-- Write the state. -/
def modify (f : σ → σ) : Action σ ε Unit := fun s => (.ok (), f s)

/-- Replace the state by what a fallible step makes of it; an error leaves it. -/
def update (f : σ → Except ε σ) : Action σ ε Unit := fun s =>
  match f s with
  | .ok s' => (.ok (), s')
  | .error err => (.error err, s)

/-- Rewrite the error a computation stops with. -/
def mapError (x : Action σ ε α) (wrap : ε → ε) : Action σ ε α := fun s => ((x s).1.mapError wrap, (x s).2)

/-- From a state in `P` the computation returns a value and a state in `Q`, or stops with an error and a
state in `E`. -/
def Triple (P : σ → Prop) (x : Action σ ε α) (Q : α → σ → Prop) (E : ε → σ → Prop) : Prop :=
  ∀ s, P s → (∀ a s', x s = (.ok a, s') → Q a s') ∧ ∀ e s', x s = (.error e, s') → E e s'

namespace Triple

variable {P P' : σ → Prop} {x : Action σ ε α} {f : α → Action σ ε β} {Q Q' : α → σ → Prop}
  {R : β → σ → Prop} {E E' : ε → σ → Prop}

theorem pure {a : α} (h : ∀ s, P s → Q a s) : Triple P (Pure.pure a) Q E := by
  intro s hs
  refine ⟨fun b s' heq => ?_, fun e s' heq => ?_⟩
  · cases heq
    exact h s hs
  · cases heq

theorem fail {err : ε} (h : ∀ s, P s → E err s) : Triple P (fail err : Action σ ε α) Q E := by
  intro s hs
  refine ⟨fun a s' heq => ?_, fun e s' heq => ?_⟩
  · cases heq
  · cases heq
    exact h s hs

theorem modify {g : σ → σ} {Q : Unit → σ → Prop} (h : ∀ s, P s → Q () (g s)) : Triple P (modify g) Q E := by
  intro s hs
  refine ⟨fun a s' heq => ?_, fun e s' heq => ?_⟩
  · cases heq
    exact h s hs
  · cases heq

theorem lift {outcome : Except ε α} (hok : ∀ s a, P s → outcome = .ok a → Q a s)
    (herr : ∀ s e, P s → outcome = .error e → E e s) : Triple P (lift outcome) Q E := by
  intro s hs
  refine ⟨fun a s' heq => ?_, fun e s' heq => ?_⟩
  · cases heq
    exact hok s a hs rfl
  · cases heq
    exact herr s e hs rfl

theorem bind (hx : Triple P x Q E) (hf : ∀ a, Triple (Q a) (f a) R E) : Triple P (x >>= f) R E := by
  intro s hs
  obtain ⟨hok, herr⟩ := hx s hs
  change (∀ b s', andThen f (x s) = (.ok b, s') → R b s') ∧ ∀ e s', andThen f (x s) = (.error e, s') → E e s'
  cases hrun : x s with
  | mk outcome s1 =>
    cases outcome with
    | ok a => exact hf a s1 (hok a s1 hrun)
    | error e =>
      refine ⟨fun b s' heq => ?_, fun e' s' heq => ?_⟩
      · cases heq
      · cases heq
        exact herr e s1 hrun

/-- A stateless outcome before the rest: the rest runs from the same states, knowing the value. -/
theorem lift_bind {outcome : Except ε α} (hok : ∀ a, outcome = .ok a → Triple P (f a) R E)
    (herr : ∀ e, outcome = .error e → ∀ s, P s → E e s) : Triple P (Action.lift outcome >>= f) R E := by
  intro s hs
  change (∀ b s', andThen f (outcome, s) = (.ok b, s') → R b s') ∧
    ∀ e s', andThen f (outcome, s) = (.error e, s') → E e s'
  cases outcome with
  | ok a => exact hok a rfl s hs
  | error e =>
    refine ⟨fun b s' heq => ?_, fun e' s' heq => ?_⟩
    · cases heq
    · cases heq
      exact herr e rfl s hs

/-- A read before the rest: the rest runs from the state that was read. -/
theorem read_bind {g : σ → α} (h : ∀ s, P s → Triple (fun s' => s' = s) (f (g s)) R E) :
    Triple P (Action.read g >>= f) R E := by
  intro s hs
  exact h s hs s rfl

theorem mono (h : Triple P x Q E) (hP : ∀ s, P' s → P s) (hQ : ∀ a s, Q a s → Q' a s)
    (hE : ∀ e s, E e s → E' e s) : Triple P' x Q' E' := by
  intro s hs
  obtain ⟨hok, herr⟩ := h s (hP s hs)
  exact ⟨fun a s' heq => hQ a s' (hok a s' heq), fun e s' heq => hE e s' (herr e s' heq)⟩

theorem mapError {wrap : ε → ε} (h : Triple P x Q E') (hE : ∀ e s, E' e s → E (wrap e) s) :
    Triple P (x.mapError wrap) Q E := by
  intro s hs
  obtain ⟨hok, herr⟩ := h s hs
  unfold Action.mapError
  cases hrun : x s with
  | mk outcome s1 =>
    cases outcome with
    | ok a =>
      refine ⟨fun b s' heq => ?_, fun e s' heq => ?_⟩
      · cases heq
        exact hok a s1 hrun
      · cases heq
    | error err =>
      refine ⟨fun b s' heq => ?_, fun e s' heq => ?_⟩
      · cases heq
      · cases heq
        exact hE err s1 (herr err s1 hrun)

theorem ite {c : Prop} [Decidable c] {y : Action σ ε α} (hx : c → Triple P x Q E)
    (hy : ¬c → Triple P y Q E) : Triple P (if c then x else y) Q E := by
  split
  · next hc => exact hx hc
  · next hc => exact hy hc

end Triple

/-! ### What a computation that returns has done -/

section Returns

theorem bind_run_ok {x : Action σ ε α} {f : α → Action σ ε β} {s s'' : σ} {b : β} :
    (x >>= f) s = (.ok b, s'') ↔ ∃ a s', x s = (.ok a, s') ∧ f a s' = (.ok b, s'') := by
  change andThen f (x s) = (.ok b, s'') ↔ _
  obtain ⟨outcome, s'⟩ := x s
  cases outcome with
  | ok a =>
    constructor
    · exact fun h => ⟨a, s', rfl, h⟩
    · rintro ⟨_, _, ⟨⟩, h⟩
      exact h
  | error err =>
    constructor
    · rintro ⟨⟩
    · rintro ⟨_, _, ⟨⟩, _⟩

theorem pure_run_ok {a b : α} {s s' : σ} : (pure a : Action σ ε α) s = (.ok b, s') ↔ a = b ∧ s = s' := by
  change (Except.ok a, s) = (.ok b, s') ↔ _
  rw [Prod.mk.injEq, Except.ok.injEq]

theorem lift_run_ok {outcome : Except ε α} {b : α} {s s' : σ} :
    (liftM outcome : Action σ ε α) s = (.ok b, s') ↔ outcome = .ok b ∧ s = s' := by
  change (outcome, s) = (.ok b, s') ↔ _
  rw [Prod.mk.injEq]

theorem fail_run_ok {err : ε} {b : α} {s s' : σ} : (fail err : Action σ ε α) s = (.ok b, s') ↔ False := by
  change (Except.error err, s) = (.ok b, s') ↔ False
  simp

theorem read_run_ok {g : σ → α} {b : α} {s s' : σ} :
    (read g : Action σ ε α) s = (.ok b, s') ↔ g s = b ∧ s = s' := by
  change (Except.ok (g s), s) = (.ok b, s') ↔ _
  rw [Prod.mk.injEq, Except.ok.injEq]

theorem modify_run_ok {g : σ → σ} {u : Unit} {s s' : σ} :
    (modify g : Action σ ε Unit) s = (.ok u, s') ↔ g s = s' := by
  change (Except.ok (), g s) = (.ok u, s') ↔ _
  simp

theorem update_run_ok {g : σ → Except ε σ} {u : Unit} {s s' : σ} : update g s = (.ok u, s') ↔ g s = .ok s' := by
  unfold update
  cases g s <;> simp

end Returns

/-- However the computation ends, it leaves a state in `I` when it starts in one. -/
def Keeps (I : σ → Prop) (x : Action σ ε α) : Prop := ∀ s, I s → I (x s).2

namespace Keeps

variable {I : σ → Prop} {x : Action σ ε α} {f : α → Action σ ε β}

theorem pure (a : α) : Keeps I (Pure.pure a : Action σ ε α) := fun _ hs => hs

theorem fail (err : ε) : Keeps I (fail err : Action σ ε α) := fun _ hs => hs

theorem lift (outcome : Except ε α) : Keeps I (lift outcome) := fun _ hs => hs

theorem read (g : σ → α) : Keeps I (read g : Action σ ε α) := fun _ hs => hs

theorem modify {g : σ → σ} (h : ∀ s, I s → I (g s)) : Keeps I (modify g : Action σ ε Unit) := h

theorem update {g : σ → Except ε σ} (h : ∀ s s', I s → g s = .ok s' → I s') : Keeps I (update g) := by
  intro s hs
  unfold Action.update
  cases hg : g s with
  | ok s' => exact h s s' hs hg
  | error err => exact hs

theorem bind (hx : Keeps I x) (hf : ∀ a, Keeps I (f a)) : Keeps I (x >>= f) := by
  intro s hs
  have hfirst := hx s hs
  change I (andThen f (x s)).2
  cases hrun : x s with
  | mk outcome s' =>
    rw [hrun] at hfirst
    cases outcome with
    | ok a => exact hf a s' hfirst
    | error err => exact hfirst

/-- A stateless outcome before the rest: the rest runs knowing the value. -/
theorem lift_bind {outcome : Except ε α} (h : ∀ a, outcome = .ok a → Keeps I (f a)) :
    Keeps I (Action.lift outcome >>= f) := by
  intro s hs
  cases outcome with
  | ok a => exact h a rfl s hs
  | error err => exact hs

/-- A write that establishes more for the rest to keep. -/
theorem modify_bind {J : σ → Prop} {g : σ → σ} {rest : Unit → Action σ ε β} (hg : ∀ s, I s → J (g s))
    (hrest : Keeps J (rest ())) (hJ : ∀ s, J s → I s) : Keeps I (Action.modify g >>= rest) :=
  fun s hs => hJ _ (hrest (g s) (hg s hs))

theorem mapError {wrap : ε → ε} (h : Keeps I x) : Keeps I (x.mapError wrap) := h

theorem ite {c : Prop} [Decidable c] {y : Action σ ε α} (hx : Keeps I x) (hy : Keeps I y) :
    Keeps I (if c then x else y) := by
  split
  · exact hx
  · exact hy

theorem forM {body : β → Action σ ε PUnit} (h : ∀ item, Keeps I (body item)) (items : List β) :
    Keeps I (items.forM body) := by
  induction items with
  | nil => exact pure PUnit.unit
  | cons item rest ih => exact bind (h item) fun _ => ih

theorem foldlM {body : α → β → Action σ ε α} (h : ∀ a item, Keeps I (body a item)) (items : List β) (init : α) :
    Keeps I (items.foldlM body init) := by
  induction items generalizing init with
  | nil => exact pure init
  | cons item rest ih =>
    rw [List.foldlM_cons]
    exact bind (h init item) fun a => ih a

end Keeps

end Action

end ChainLab.Lib
