/-
Reading a string of items.

`Reads item s bs outs s'`: the string `bs` is a concatenation of non-empty
items; reading them one after another takes the reader from `s` to `s'` and
yields `outs`. What an item does is a relation that says nothing about the
octets after it, so that strings of items compose, and a loop with enough fuel
that reads item after item is correct by one induction.
-/
import Mathlib.Tactic

namespace H2o.Lib

variable {σ α β : Type*} {item : σ → List α → β → σ → Prop}

inductive Reads (item : σ → List α → β → σ → Prop) :
    σ → List α → List β → σ → Prop where
  | nil (s : σ) : Reads item s [] [] s
  | cons {s s₁ s₂ : σ} {e es : List α} {out : β} {outs : List β} :
      e ≠ [] → item s e out s₁ → Reads item s₁ es outs s₂ →
      Reads item s (e ++ es) (out :: outs) s₂

theorem Reads.append {s s₁ s₂ : σ} {bs bs' : List α} {outs outs' : List β}
    (h : Reads item s bs outs s₁) (h' : Reads item s₁ bs' outs' s₂) :
    Reads item s (bs ++ bs') (outs ++ outs') s₂ := by
  induction h with
  | nil => exact h'
  | cons hne hitem _ ih =>
    rw [List.append_assoc]
    exact .cons hne hitem (ih h')

/-- One more item at the end. -/
theorem Reads.snoc {s s₁ s₂ : σ} {bs e : List α} {outs : List β} {out : β}
    (h : Reads item s bs outs s₁) (hne : e ≠ []) (hitem : item s₁ e out s₂) :
    Reads item s (bs ++ e) (outs ++ [out]) s₂ := by
  refine h.append ?_
  simpa using Reads.cons hne hitem (.nil s₂)

end H2o.Lib
