/-
Runs of a machine whose steps may fail.

A machine is a step function `σ → ε → Except φ σ`; a run over a list of events
is `List.foldlM`. `Meets` says that every step of a run satisfies a condition
on the state it starts from and on its event, and the rules derive what whole
runs do from what one step does.
-/
import Mathlib.Tactic

namespace H2o.Lib

open List Except

variable {σ ε φ : Type*} {step : σ → ε → Except φ σ} {cond : σ → ε → Prop}
  {s s' : σ} {es : List ε} {I : σ → Prop}

/-- Every step of the run satisfies `cond` in the state it is taken from. -/
def Meets (step : σ → ε → Except φ σ) (cond : σ → ε → Prop) : σ → List ε → Prop
  | _, [] => True
  | s, e :: es => cond s e ∧ ∀ s', step s e = .ok s' → Meets step cond s' es

/-- `Meets`, computed. -/
def meets (step : σ → ε → Except φ σ) (cond : σ → ε → Prop)
    [∀ s e, Decidable (cond s e)] : σ → List ε → Bool
  | _, [] => true
  | s, e :: es =>
    decide (cond s e) &&
      match step s e with
      | .ok s' => meets step cond s' es
      | .error _ => true

theorem meets_iff [∀ s e, Decidable (cond s e)] :
    meets step cond s es = true ↔ Meets step cond s es := by
  induction es generalizing s with
  | nil => simp [meets, Meets]
  | cons e es ih =>
    rw [meets, Bool.and_eq_true, decide_eq_true_iff]
    refine and_congr_right fun _ => ?_
    cases step s e with
    | ok s' => simp [ih]
    | error x => simp

instance {cond : σ → ε → Prop} [∀ s e, Decidable (cond s e)] (s : σ)
    (es : List ε) : Decidable (Meets step cond s es) :=
  decidable_of_iff _ meets_iff

/-- A computation that may fail, taken apart. -/
theorem except_bind_eq_ok {α β : Type} {x : Except φ α} {f : α → Except φ β}
    {r : β} : x >>= f = .ok r ↔ ∃ a, x = .ok a ∧ f a = .ok r := by
  cases x <;> simp [bind, Except.bind]

@[simp] theorem foldlM_except_nil (s : σ) : List.foldlM step s [] = .ok s :=
  rfl

theorem foldlM_except_cons (s : σ) (e : ε) (es : List ε) :
    List.foldlM step s (e :: es) =
      match step s e with
      | .ok s' => List.foldlM step s' es
      | .error x => .error x := by
  rw [foldlM_cons]
  cases step s e <;> rfl

/-- A run after its first step. -/
theorem foldlM_except_cons_ok {e : ε} :
    (e :: es).foldlM step s = .ok s' ↔ ∃ t, step s e = .ok t ∧
      es.foldlM step t = .ok s' := by
  rw [foldlM_except_cons]
  cases step s e <;> simp

/-- A run in two parts. -/
theorem foldlM_except_append {es' : List ε} :
    (es ++ es').foldlM step s = .ok s' ↔
      ∃ t, es.foldlM step s = .ok t ∧ es'.foldlM step t = .ok s' := by
  induction es generalizing s with
  | nil =>
    exact ⟨fun h => ⟨s, rfl, h⟩, fun ⟨t, ht, h⟩ => ok.inj ht ▸ h⟩
  | cons e es ih =>
    rw [cons_append, foldlM_except_cons, foldlM_except_cons]
    cases step s e with
    | ok t => exact ih
    | error x => simp

/-- A condition on the events alone is met by every run. -/
theorem meets_of_forall {cond : ε → Prop} (hcond : ∀ e ∈ es, cond e) (s : σ) :
    Meets step (fun _ e => cond e) s es := by
  induction es generalizing s with
  | nil => trivial
  | cons e es ih =>
    exact ⟨hcond e mem_cons_self, fun s' _ =>
      ih (fun e he => hcond e (mem_cons_of_mem _ he)) s'⟩

/-- A step that succeeds and simulates a step of an abstract machine makes runs
succeed and simulate it. -/
theorem run_simulates {τ : Type*} {R : τ → σ → Prop} {f : τ → ε → τ}
    (hstep : ∀ t s e, R t s → cond s e → ∃ s', step s e = .ok s' ∧
      R (f t e) s')
    {t : τ} (h : R t s)
    (hmeets : Meets step cond s es) :
    ∃ s', es.foldlM step s = .ok s' ∧ R (es.foldl f t) s' := by
  induction es generalizing t s with
  | nil => exact ⟨s, rfl, h⟩
  | cons e es ih =>
    obtain ⟨hcond, hrest⟩ := hmeets
    obtain ⟨s₁, hs₁, hsim⟩ := hstep t s e h hcond
    rw [foldlM_except_cons, hs₁]
    exact ih hsim (hrest s₁ hs₁)

/-- A step that succeeds and keeps an invariant, under a condition, makes runs
that meet the condition succeed and keep it. -/
theorem run_of_meets {Inv : σ → Prop}
    (hstep : ∀ s e, Inv s → cond s e → ∃ s', step s e = .ok s' ∧ Inv s')
    (hs : Inv s) (hmeets : Meets step cond s es) :
    ∃ s', es.foldlM step s = .ok s' ∧ Inv s' :=
  run_simulates (R := fun (_ : Unit) => Inv) (f := fun t _ => t)
    (fun _ => hstep) (t := ()) hs hmeets

/-- A step that succeeds and keeps an invariant makes every run succeed. -/
theorem run_of_total {Inv : σ → Prop}
    (hstep : ∀ s e, Inv s → ∃ s', step s e = .ok s' ∧ Inv s') (hs : Inv s)
    (es : List ε) :
    ∃ s', es.foldlM step s = .ok s' ∧ Inv s' :=
  run_of_meets (fun s e h _ => hstep s e h) hs
    (meets_of_forall (fun _ _ => trivial) s)

/-- An invariant of the steps that succeed is one of the runs that do, and what
is known of a step that fails is known of a run that does. -/
theorem run_outcome {P : φ → Prop} (hstep : ∀ s e, I s → cond s e →
      (∀ s', step s e = .ok s' → I s') ∧ ∀ x, step s e = .error x → P x)
    (hs : I s) (hmeets : Meets step cond s es) :
    (∀ s', es.foldlM step s = .ok s' → I s') ∧ ∀ x, es.foldlM step s =
      .error x → P x := by
  induction es generalizing s with
  | nil =>
    refine ⟨fun s' hs' => ok.inj hs' ▸ hs, fun x hx => ?_⟩
    rw [foldlM_except_nil] at hx
    cases hx
  | cons e es ih =>
    obtain ⟨hcond, hrest⟩ := hmeets
    obtain ⟨hok, herr⟩ := hstep s e hs hcond
    rw [foldlM_except_cons]
    cases he : step s e with
    | error x =>
      refine ⟨fun s' hs' => ?_, fun y hy => ?_⟩
      · cases hs'
      · exact herr y (he.trans hy)
    | ok s₁ => exact ih (hok s₁ he) (hrest s₁ he)

theorem run_invariant (hstep : ∀ s e s', I s → cond s e →
    step s e = .ok s' → I s')
    {s s' : σ} (hs : I s) (hmeets : Meets step cond s es)
    (hrun : es.foldlM step s = .ok s') : I s' :=
  (run_outcome (P := fun _ => True) (fun s e h hcond =>
    ⟨fun s' => hstep s e s' h hcond, fun _ _ => trivial⟩) hs hmeets).1 s' hrun

/-- The same, without a condition. -/
theorem run_keeps (hstep : ∀ s e s', I s → step s e = .ok s' → I s')
    {s s' : σ} (hs : I s) (hrun : es.foldlM step s = .ok s') : I s' :=
  run_invariant (fun s e s' h _ => hstep s e s' h) hs
    (meets_of_forall (fun _ _ => trivial) s) hrun

/-- A preorder that holds across each step holds across runs. -/
theorem run_rel {R : σ → σ → Prop} (hrefl : ∀ s, R s s)
    (htrans : ∀ {s t u}, R s t → R t u → R s u)
    (hstep : ∀ s e s', step s e = .ok s' → R s s')
    (hrun : es.foldlM step s = .ok s') : R s s' :=
  run_keeps (fun t e t' h he => htrans h (hstep t e t' he)) (hrefl s) hrun

/-- The beginning of a run, and the rest from where it leads. -/
theorem Meets.of_append {es' : List ε} (h : Meets step cond s (es ++ es')) :
    Meets step cond s es ∧ ∀ s', es.foldlM step s = .ok s' →
      Meets step cond s' es' := by
  induction es generalizing s with
  | nil =>
    refine ⟨trivial, fun s' hs' => ?_⟩
    cases hs'
    exact h
  | cons e es ih =>
    obtain ⟨hcond, hrest⟩ := h
    refine ⟨⟨hcond, fun s₁ hs₁ => (ih (hrest s₁ hs₁)).1⟩, fun s' hs' => ?_⟩
    obtain ⟨s₁, he, hs'⟩ := foldlM_except_cons_ok.1 hs'
    exact (ih (hrest s₁ he)).2 s' hs'

/-- The run succeeds, in a state that passes a test. -/
def reaches (step : σ → ε → Except φ σ) (test : σ → Bool) (s : σ)
    (es : List ε) : Bool :=
  match es.foldlM step s with
  | .ok s' => test s'
  | .error _ => false

theorem exists_of_reaches {test : σ → Bool}
    (h : reaches step test s es = true) :
    ∃ s', es.foldlM step s = .ok s' ∧ test s' = true := by
  unfold reaches at h
  split at h
  next s' hs' => exact ⟨s', hs', h⟩
  · cases h

theorem Meets.and {cond' : σ → ε → Prop} (h : Meets step cond s es)
    (h' : Meets step cond' s es) :
    Meets step (fun s e => cond s e ∧ cond' s e) s es := by
  induction es generalizing s with
  | nil => trivial
  | cons e es ih =>
    exact ⟨⟨h.1, h'.1⟩, fun s' he => ih (h.2 s' he) (h'.2 s' he)⟩

end H2o.Lib
