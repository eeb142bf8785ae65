import Mathlib

/-! A process that hands something out for a position only after the record of it has replaced its file.
Writes may fail with or without having replaced the file, and the process may stop at any moment and start
again from the file. -/

namespace ChainLab.Lib.WriteAhead

open Relation

variable {P B : Type*} [LinearOrder P]

/-- The record a running process works from (`none` while it is down), the file's, and what was handed out,
oldest first. -/
structure Journal (P B : Type*) where
  memory : Option (P × B)
  file : P × B
  released : List (P × B)

/-- What the process and its surroundings may do. -/
inductive Step : Journal P B → Journal P B → Prop
  | advance {j : Journal P B} {last next : P × B} (hmemory : j.memory = some last) (hlt : last.1 < next.1) :
      Step j { memory := some next, file := next, released := j.released ++ [next] }
  | unconfirmed {j : Journal P B} {last next : P × B} (hmemory : j.memory = some last) (hlt : last.1 < next.1) :
      Step j { j with file := next }
  | again {j : Journal P B} {last : P × B} (hmemory : j.memory = some last) :
      Step j { j with released := j.released ++ [last] }
  | stop {j : Journal P B} : Step j { j with memory := none }
  | start {j : Journal P B} : Step j { j with memory := some j.file }

/-- `b` is at a later position than `a`, or is the same record. -/
def Precedes (a b : P × B) : Prop := a.1 < b.1 ∨ a = b

theorem Precedes.refl (a : P × B) : Precedes a a := .inr rfl

theorem Precedes.trans_lt {a b c : P × B} (h : Precedes a b) (hlt : b.1 < c.1) : Precedes a c := by
  rcases h with hab | rfl
  · exact .inl (hab.trans hlt)
  · exact .inl hlt

theorem Precedes.le {a b : P × B} (h : Precedes a b) : a.1 ≤ b.1 := by
  rcases h with hlt | rfl
  · exact hlt.le
  · exact le_rfl

theorem Precedes.eq_of_eq {a b : P × B} (h : Precedes a b) (heq : a.1 = b.1) : a = b := by
  rcases h with hlt | rfl
  · exact absurd heq hlt.ne
  · rfl

/-- Nothing handed out is ahead of the file, nor of the running process, which is not ahead of the file
either. -/
structure Safe (j : Journal P B) : Prop where
  ordered : j.released.Pairwise Precedes
  stored : ∀ r ∈ j.released, Precedes r j.file
  known : ∀ last ∈ j.memory, Precedes last j.file ∧ ∀ r ∈ j.released, Precedes r last

private theorem pairwise_snoc {l : List (P × B)} {b : P × B} (h : l.Pairwise Precedes)
    (hall : ∀ a ∈ l, Precedes a b) : (l ++ [b]).Pairwise Precedes := by
  rw [List.pairwise_append]
  refine ⟨h, List.pairwise_singleton .., fun a ha c hc => ?_⟩
  rw [List.mem_singleton] at hc
  exact hc ▸ hall a ha

private theorem forall_snoc {l : List (P × B)} {b c : P × B} (hall : ∀ a ∈ l, Precedes a c)
    (hb : Precedes b c) : ∀ a ∈ l ++ [b], Precedes a c := by
  intro a ha
  rcases List.mem_append.mp ha with ha | ha
  · exact hall a ha
  · rw [List.mem_singleton] at ha
    exact ha ▸ hb

theorem Step.safe {j j' : Journal P B} (h : Step j j') (hs : Safe j) : Safe j' := by
  cases h with
  | @advance last next hmemory hlt =>
    obtain ⟨-, hreleased⟩ := hs.known last hmemory
    have hall : ∀ r ∈ j.released, Precedes r next := fun r hr => (hreleased r hr).trans_lt hlt
    refine ⟨pairwise_snoc hs.ordered hall, forall_snoc hall (.refl next), ?_⟩
    rintro _ ⟨⟩
    exact ⟨.refl next, forall_snoc hall (.refl next)⟩
  | @unconfirmed last next hmemory hlt =>
    obtain ⟨-, hreleased⟩ := hs.known last hmemory
    refine ⟨hs.ordered, fun r hr => (hreleased r hr).trans_lt hlt, fun last' hlast' => ?_⟩
    obtain rfl : last = last' := Option.some.inj (hmemory.symm.trans hlast')
    exact ⟨.inl hlt, hreleased⟩
  | @again last hmemory =>
    obtain ⟨hfile, hreleased⟩ := hs.known last hmemory
    refine ⟨pairwise_snoc hs.ordered hreleased, forall_snoc hs.stored hfile, fun last' hlast' => ?_⟩
    obtain rfl : last = last' := Option.some.inj (hmemory.symm.trans hlast')
    exact ⟨hfile, forall_snoc hreleased (.refl last)⟩
  | stop => exact ⟨hs.ordered, hs.stored, fun _ hlast => nomatch hlast⟩
  | start =>
    refine ⟨hs.ordered, hs.stored, ?_⟩
    rintro _ ⟨⟩
    exact ⟨.refl _, hs.stored⟩

end ChainLab.Lib.WriteAhead
