/-
The decoder stream, instruction by instruction.

`encoderInstructions_invariant` is the rule for a whole input: what every
instruction keeps, under a condition on the encoder it is handled by, holds
after each of them and at the end. The handlers leave the table alone.
-/
import H2o.Qpack.Session

namespace H2o.Qpack

open Except List

/-- An invariant of the handlers is one of an input. It may relate the encoder
to something `next` makes of the instructions handled so far. -/
theorem encoderInstructions_invariant {γ : Type}
    {next : γ → DecoderInstruction → γ} {Inv : Encoder → γ → Prop}
    {cond : Encoder → DecoderInstruction → Prop}
    (hstep : ∀ q g i q', Inv q g → cond q i →
      handleDecoderInstruction q i = .ok q' → Inv q' (next g i))
    {n : Nat} {q : Encoder} {g : γ} {src : Bytes} (h : Inv q g)
    (hmeets : InputMeets cond n q src) :
    Inv (encoderInstructions n q src).1
      (((inputTrace n q src).map Prod.fst).foldl next g) ∧
      ∀ p ∈ inputTrace n q src, ∃ g', Inv p.2 g' := by
  induction n generalizing q g src with
  | zero => exact ⟨h, forall_mem_nil _⟩
  | succ n ih =>
    rw [encoderInstructions, inputTrace]
    rw [InputMeets] at hmeets
    cases hr : readDecoderInstruction src with
    | error e =>
      refine ⟨?_, forall_mem_nil _⟩
      split
      · exact h
      · cases e <;> exact h
    | ok r =>
      obtain ⟨i, rest⟩ := r
      have hne : src ≠ [] := by
        rintro rfl
        cases hr
      simp only [hr] at hmeets
      simp only [if_neg hne]
      cases hh : handleDecoderInstruction q i with
      | error e => exact ⟨h, forall_mem_nil _⟩
      | ok q' =>
        rw [hh] at hmeets
        have hq' := hstep q g i q' h hmeets.1 hh
        obtain ⟨hlast, htrace⟩ := ih hq' hmeets.2
        exact ⟨hlast, forall_mem_cons.mpr ⟨⟨_, hq'⟩, htrace⟩⟩

theorem inputMeets_true (n : Nat) (q : Encoder) (src : Bytes) :
    InputMeets (fun _ _ => True) n q src := by
  induction n generalizing q src with
  | zero => trivial
  | succ n ih =>
    rw [InputMeets]
    split
    · trivial
    · refine ⟨trivial, ?_⟩
      split
      · trivial
      · exact ih _ _

-- ==== frames

theorem cancelLoop_table (streamId : Int64) (n index : Nat) (q : Encoder) :
    (cancelLoop streamId n index q).table = q.table := by
  induction n generalizing index q with
  | zero => rfl
  | succ n ih =>
    rw [cancelLoop]
    split
    · split
      · rw [ih]; rfl
      · rw [ih]
    · rfl

theorem handleDecoderInstruction_table {q q' : Encoder}
    {i : DecoderInstruction}
    (h : handleDecoderInstruction q i = .ok q') : q'.table = q.table := by
  cases i with
  | tableStateSynchronize insertCount =>
    unfold handleDecoderInstruction handleTableStateSynchronize at h
    simp only at h
    split at h
    · cases h
    · exact ok.inj h ▸ rfl
  | headerAck streamId =>
    unfold handleDecoderInstruction handleHeaderAck at h
    simp only at h
    split at h
    · cases h
    · cases h
      split <;> rfl
  | streamCancellation streamId =>
    cases h
    exact cancelLoop_table _ _ _ _

theorem encoderHandleInput_table (q : Encoder) (src : Bytes) :
    (encoderHandleInput q src).1.table = q.table := by
  refine (@encoderInstructions_invariant Unit (fun g _ => g)
    (fun q' _ => q'.table = q.table) (fun _ _ => True) ?_ _ q () src rfl
    (inputMeets_true _ q src)).1
  intro q₁ _ i q' h _ hh
  rw [handleDecoderInstruction_table hh, h]

end H2o.Qpack
