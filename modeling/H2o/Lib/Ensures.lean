/-
Postconditions of functions that may fail.

`Ensures P r` says that what is returned, if something is, has the property
`P`, and `Yields P r` that something is returned as well. There is one rule for
each way in which such a function is put together, so that a proof follows the
text of the function.
-/
import H2o.Lib.Run

namespace H2o.Lib

variable {φ : Type*} {α β : Type} {P : α → Prop} {Q : β → Prop}
  {r x r' : Except φ α} {f : α → Except φ β}

/-- What is returned has the property. -/
def Ensures (P : α → Prop) (r : Except φ α) : Prop := ∀ a, r = .ok a → P a

theorem Ensures.ok {a : α} (h : P a) : Ensures P (.ok a : Except φ α) := by
  intro a' heq
  cases heq
  exact h

theorem Ensures.error (x : φ) : Ensures P (.error x) := by
  intro a heq
  cases heq

theorem Ensures.imp {P' : α → Prop} (h : Ensures P r)
    (himp : ∀ a, P a → P' a) : Ensures P' r :=
  fun a heq => himp a (h a heq)

/-- The rule for sequencing. -/
theorem Ensures.bind (h : Ensures P x) (hf : ∀ a, P a → Ensures Q (f a)) :
    Ensures Q (x >>= f) := by
  intro b heq
  obtain ⟨a, hx, hb⟩ := except_bind_eq_ok.1 heq
  exact hf a (h a hx) b hb

/-- Nothing is known of what the first part returns. -/
theorem Ensures.bind_any (hf : ∀ a, Ensures Q (f a)) : Ensures Q (x >>= f) :=
  Ensures.bind (fun _ _ => trivial) fun a (_ : True) => hf a

theorem Ensures.map {f : α → β} (h : Ensures P x)
    (hf : ∀ a, P a → Q (f a)) : Ensures Q (x.map f) := by
  intro b heq
  cases hx : x with
  | error e =>
    rw [hx] at heq
    cases heq
  | ok a =>
    rw [hx] at heq
    cases heq
    exact hf a (h a hx)

theorem Ensures.ite {p : Prop} {dec : Decidable p} (h : Ensures P r)
    (h' : Ensures P r') :
    Ensures P (if p then r else r') := by
  split
  · exact h
  · exact h'

/-- The same, where the condition matters. -/
theorem Ensures.dite {p : Prop} {dec : Decidable p} (h : p → Ensures P r)
    (h' : ¬p → Ensures P r') :
    Ensures P (if p then r else r') := by
  split
  · exact h ‹_›
  · exact h' ‹_›

/-- Something is returned, and it has the property. -/
def Yields (P : α → Prop) (r : Except φ α) : Prop := ∃ a, r = .ok a ∧ P a

theorem Yields.ok {a : α} (h : P a) :
    Yields P (.ok a : Except φ α) := ⟨a, rfl, h⟩

theorem Yields.imp {P' : α → Prop} (h : Yields P r) (himp : ∀ a, P a → P' a) :
    Yields P' r := by
  obtain ⟨a, heq, ha⟩ := h
  exact ⟨a, heq, himp a ha⟩

/-- The same, without a fault. -/
theorem Yields.bind (h : Yields P x) (hf : ∀ a, P a → Yields Q (f a)) :
    Yields Q (x >>= f) := by
  obtain ⟨a, rfl, ha⟩ := h
  exact hf a ha

theorem Yields.map {f : α → β} (h : Yields P x) (hf : ∀ a, P a → Q (f a)) :
    Yields Q (x.map f) := by
  obtain ⟨a, rfl, ha⟩ := h
  exact ⟨f a, rfl, hf a ha⟩

theorem Yields.ite {p : Prop} {dec : Decidable p} (h : p → Yields P r)
    (h' : ¬p → Yields P r') :
    Yields P (if p then r else r') := by
  split
  · exact h ‹_›
  · exact h' ‹_›

end H2o.Lib
