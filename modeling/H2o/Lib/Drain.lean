/-
A loop that takes what it can from an input that grows.

A round looks at the state and at the input: it waits for more input, or takes
something from the front of the input, or is the last one; or it fails. Rounds
are `Uncut` when more input at the end changes nothing for a round that does
not wait. Then the loop does not see how its input is cut: what it does with
the first part, and with what is left of it in front of the second, is what it
does with the whole (`drainAll_append`, `foldlM_drainAll`).
-/
import H2o.Lib.Run

namespace H2o.Lib

open List

variable {α σ φ : Type}

/-- What a round makes of the input. -/
inductive Round (σ α : Type) where
  | wait
  | took (s : σ) (rest : List α)
  /-- Nothing will be taken any more. -/
  | stop (s : σ)

/-- With more input at the end. -/
def Round.append (more : List α) : Round σ α → Round σ α
  | wait => wait
  | took s rest => took s (rest ++ more)
  | stop s => stop s

structure Uncut (round : σ → List α → Except φ (Round σ α)) : Prop where
  nil : ∀ s, round s [] = .ok .wait
  append : ∀ s src more, round s src ≠ .ok .wait →
    round s (src ++ more) = (round s src).map (Round.append more)
  lt : ∀ {s src s' rest}, round s src = .ok (.took s' rest) →
    rest.length < src.length
  stopped : ∀ {s src s'}, round s src = .ok (.stop s') → ∀ src',
    round s' src' = .ok .wait

/-- Rounds, until one does not take anything. -/
def drain (round : σ → List α → Except φ (Round σ α)) :
    Nat → σ → List α → Except φ (σ × List α)
  | 0, s, src => .ok (s, src)
  | n + 1, s, src =>
    match round s src with
    | .error x => .error x
    | .ok .wait => .ok (s, src)
    | .ok (.stop s') => .ok (s', src)
    | .ok (.took s' rest) => drain round n s' rest

/-- As many rounds as there can be. -/
def drainAll (round : σ → List α → Except φ (Round σ α)) (s : σ)
    (src : List α) : Except φ (σ × List α) :=
  drain round src.length s src

section Drain

variable {round : σ → List α → Except φ (Round σ α)} {s s' : σ}
  {src rest : List α}

section

variable (h : Uncut round)
include h

/-- More rounds than elements do not matter. -/
theorem drain_eq_of_le {n : Nat} (hn : src.length ≤ n) :
    drain round n s src = drainAll round s src := by
  rw [drainAll]
  induction n using Nat.strongRecOn generalizing s src with
  | _ n ih =>
    by_cases hsrc : src = []
    · subst hsrc
      cases n with
      | zero => rfl
      | succ n => simp only [drain, h.nil, length_nil]
    obtain ⟨k, hk⟩ : ∃ k, src.length = k + 1 :=
      Nat.exists_eq_succ_of_ne_zero (by simpa using hsrc)
    obtain ⟨m, rfl⟩ : ∃ m, n = m + 1 := ⟨n - 1, by omega⟩
    rw [hk, drain, drain]
    cases hround : round s src with
    | error x => rfl
    | ok r =>
      cases r with
      | wait => rfl
      | stop s' => rfl
      | took s' rest =>
        have hlt := h.lt hround
        simp only
        rw [ih m (by omega) (by omega)]
        exact (ih k (by omega) (by omega)).symm

/-- A round, and the rounds that follow it. -/
theorem drainAll_eq (s : σ) (src : List α) : drainAll round s src =
      match round s src with
      | .error x => .error x
      | .ok .wait => .ok (s, src)
      | .ok (.stop s') => .ok (s', src)
      | .ok (.took s' rest) => drainAll round s' rest := by
  rw [← drain_eq_of_le h (Nat.le_succ src.length), drain]
  cases hround : round s src with
  | error x => rfl
  | ok r =>
    cases r with
    | wait => rfl
    | stop s' => rfl
    | took s' rest =>
      have hlt := h.lt hround
      exact drain_eq_of_le h (by omega)

theorem drainAll_wait (hwait : round s src = .ok .wait) :
    drainAll round s src = .ok (s, src) := by
  rw [drainAll_eq h, hwait]

/-- What is kept across all rounds. -/
theorem drainAll_induction {I : σ → List α → Prop}
    (htook : ∀ s src s' rest, I s src → round s src = .ok (.took s' rest) →
      I s' rest)
    (hstop : ∀ s src s', I s src → round s src = .ok (.stop s') → I s' src)
    (hI : I s src)
    (hdrain : drainAll round s src = .ok (s', rest)) :
    I s' rest ∧ round s' rest = .ok .wait := by
  induction hlen : src.length using Nat.strongRecOn generalizing s src with
  | _ n ih =>
    subst hlen
    rw [drainAll_eq h] at hdrain
    cases hround : round s src with
    | error x =>
      rw [hround] at hdrain
      cases hdrain
    | ok r =>
      rw [hround] at hdrain
      cases r with
      | wait =>
        cases hdrain
        exact ⟨hI, hround⟩
      | stop t =>
        obtain ⟨rfl, rfl⟩ := Prod.mk.inj (Except.ok.inj hdrain)
        exact ⟨hstop s src t hI hround, h.stopped hround src⟩
      | took t left =>
        exact ih left.length (h.lt hround) (htook s src t left hI hround)
          hdrain rfl

theorem drainAll_append (s : σ) (src more : List α) :
    drainAll round s (src ++ more) =
      (drainAll round s src >>= fun p =>
        drainAll round p.1 (p.2 ++ more)) := by
  -- the induction is on the input that is there first
  induction hlen : src.length using Nat.strongRecOn generalizing s src with
  | _ n ih =>
    subst hlen
    rw [drainAll_eq h s src]
    have hmore := h.append s src more
    cases hround : round s src with
    | error x =>
      rw [hround] at hmore
      rw [drainAll_eq h, hmore fun heq => by cases heq]
      rfl
    | ok r =>
      rw [hround] at hmore
      cases r with
      | wait => rfl
      | stop s' =>
        rw [drainAll_eq h, hmore fun heq => by cases heq]
        exact (drainAll_wait h (h.stopped hround (src ++ more))).symm
      | took s' rest =>
        rw [drainAll_eq h, hmore fun heq => by cases heq]
        exact ih rest.length (h.lt hround) s' rest rfl

/-- However the input is cut, the loop does the same. -/
theorem foldlM_drainAll (hwait : round s src = .ok .wait)
    (pieces : List (List α)) :
    pieces.foldlM (fun p piece => drainAll round p.1 (p.2 ++ piece)) (s, src) =
      drainAll round s (src ++ pieces.flatten) := by
  induction pieces generalizing s src with
  | nil =>
    rw [flatten_nil, append_nil, drainAll_wait h hwait]
    rfl
  | cons piece pieces ih =>
    rw [foldlM_cons, flatten_cons, ← append_assoc,
      drainAll_append h s (src ++ piece)]
    cases hdrain : drainAll round s (src ++ piece) with
    | error x => rfl
    | ok p =>
      have hwaits := drainAll_induction (I := fun _ _ => True) h
        (fun _ _ _ _ _ _ => trivial) (fun _ _ _ _ _ => trivial) trivial
        hdrain
      exact ih hwaits.2

end

end Drain

end H2o.Lib
