/-
Reading a stream that arrives in pieces.

A reader takes one item from the beginning of the input, or fails; one of its
errors, `short`, says that there is not enough input yet. It is `Stable` when
more input does not change what it says, `short` apart. Readers are built from
`andThen`, `uncons`, `peek` and `split`, and there is a rule for each.

`feed` reads and carries out items as long as there are whole ones. With a
stable reader, input that is cut in two gives what the whole gives, if what is
left of the first half is read again in front of the second (`feed_splits`).
A handler with that property does not see how the stream is cut at all
(`Splits.receive`).
-/
import Mathlib.Data.List.Basic

namespace H2o.Lib

open List Except

variable {α β γ ι σ τ ε : Type}
  {first : List α → Except ε (β × List α)}
  {next : α → List α → Except ε (β × List α)}

  {src : List α}

-- ==== readers

/-- What the reader makes of an input stays when more follows it, and it does
not put anything back. -/
structure Stable (short : ε) (read : List α → Except ε (β × List α)) :
    Prop where
  ok : ∀ {src b rest} more, read src = .ok (b, rest) → read (src ++ more) =
    .ok (b, rest ++ more)
  error : ∀ {src e} more, read src = .error e → e ≠ short →
    read (src ++ more) = .error e
  le : ∀ {src b rest}, read src = .ok (b, rest) → rest.length ≤ src.length

/-- The reader takes something. -/
def Progress (read : List α → Except ε (β × List α)) : Prop :=
  ∀ src b rest, read src = .ok (b, rest) → rest.length < src.length

/-- One reader after another. -/
def andThen (first : List α → Except ε (β × List α))
    (next : β → List α → Except ε (γ × List α)) (src : List α) :
    Except ε (γ × List α) :=
  match first src with
  | .error e => .error e
  | .ok (b, rest) => next b rest

/-- The next element, and a reader for what follows it. -/
def uncons (short : ε) (next : α → List α → Except ε (β × List α)) :
    List α → Except ε (β × List α)
  | [] => .error short
  | a :: src => next a src

/-- The next element, and a reader for the input that begins with it. -/
def peek (short : ε) (next : α → List α → Except ε (β × List α)) :
    List α → Except ε (β × List α)
  | [] => .error short
  | a :: src => next a (a :: src)

/-- The next `n` elements. -/
def split (short : ε) (n : Nat) (src : List α) : Except ε (List α × List α) :=
  if n ≤ src.length then .ok (src.take n, src.drop n) else .error short

variable {short : ε}

theorem stable_pure (b : β) :
    Stable short fun src : List α => .ok (b, src) where
  ok := by
    intro src b' rest more h
    cases h
    rfl
  error := by
    intro src e more h
    cases h
  le := by
    intro src b' rest h
    cases h
    exact Nat.le_refl _

theorem stable_error (e : ε) :
    Stable short fun _ : List α => (.error e : Except ε (β × List α)) where
  ok := by
    intro src b rest more h
    cases h
  error := by
    intro src e' more h _
    exact h
  le := by
    intro src b rest h
    cases h

theorem Stable.ite {p : Prop} [Decidable p]
    {second : List α → Except ε (β × List α)} (hfirst : Stable short first)
    (hsecond : Stable short second) :
    Stable short fun src => if p then first src else second src := by
  by_cases hp : p
  · simpa only [if_pos hp] using hfirst
  · simpa only [if_neg hp] using hsecond

/-- One reader after the other. -/
theorem Stable.andThen {next : β → List α → Except ε (γ × List α)}
    (hfirst : Stable short first) (hnext : ∀ b, Stable short (next b)) :
    Stable short (Lib.andThen first next) where
  ok := by
    intro src c rest more h
    unfold Lib.andThen at h ⊢
    cases hread : first src with
    | error e =>
      rw [hread] at h
      cases h
    | ok r =>
      rw [hread] at h
      rw [hfirst.ok more hread]
      exact (hnext r.1).ok more h
  error := by
    intro src e more h hne
    unfold Lib.andThen at h ⊢
    cases hread : first src with
    | error e' =>
      rw [hread] at h
      obtain rfl := error.inj h
      rw [hfirst.error more hread hne]
    | ok r =>
      rw [hread] at h
      rw [hfirst.ok more hread]
      exact (hnext r.1).error more h hne
  le := by
    intro src c rest h
    unfold Lib.andThen at h
    cases hread : first src with
    | error e =>
      rw [hread] at h
      cases h
    | ok r =>
      rw [hread] at h
      exact Nat.le_trans ((hnext r.1).le h) (hfirst.le hread)

theorem Stable.uncons (hnext : ∀ a, Stable short (next a)) :
    Stable short (Lib.uncons short next) where
  ok := by
    intro src b rest more h
    cases src with
    | nil => cases h
    | cons a src => exact (hnext a).ok more h
  error := by
    intro src e more h hne
    cases src with
    | nil => exact absurd (error.inj h).symm hne
    | cons a src => exact (hnext a).error more h hne
  le := by
    intro src b rest h
    cases src with
    | nil => cases h
    | cons a src => exact Nat.le_succ_of_le ((hnext a).le h)

theorem Stable.peek (hnext : ∀ a, Stable short (next a)) :
    Stable short (Lib.peek short next) where
  ok := by
    intro src b rest more h
    cases src with
    | nil => cases h
    | cons a src => exact (hnext a).ok more h
  error := by
    intro src e more h hne
    cases src with
    | nil => exact absurd (error.inj h).symm hne
    | cons a src => exact (hnext a).error more h hne
  le := by
    intro src b rest h
    cases src with
    | nil => cases h
    | cons a src => exact (hnext a).le h

theorem stable_split (n : Nat) :
    Stable short fun src : List α => split short n src where
  ok := by
    intro src b rest more h
    unfold split at h ⊢
    split at h
    · rename_i hn
      cases h
      rw [if_pos (by rw [length_append]; omega),
        take_append_of_le_length hn, drop_append_of_le_length hn]
    · cases h
  error := by
    intro src e more h hne
    unfold split at h
    split at h
    · cases h
    · exact absurd (error.inj h).symm hne
  le := by
    intro src b rest h
    unfold split at h
    split at h
    · cases h
      rw [length_drop]
      exact Nat.sub_le ..
    · cases h

theorem Progress.andThen {next : β → List α → Except ε (γ × List α)}
    (hfirst : Progress first) (short : ε)
    (hnext : ∀ b, Stable short (next b)) :
    Progress (Lib.andThen first next) := by
  intro src c rest h
  unfold Lib.andThen at h
  cases hread : first src with
  | error e =>
    rw [hread] at h
    cases h
  | ok r =>
    rw [hread] at h
    exact Nat.lt_of_le_of_lt ((hnext r.1).le h) (hfirst src _ _ hread)

theorem progress_uncons (hnext : ∀ a, Stable short (next a)) :
    Progress (uncons short next) := by
  intro src b rest h
  cases src with
  | nil => cases h
  | cons a src => exact Nat.lt_succ_of_le ((hnext a).le h)

theorem progress_peek (hnext : ∀ a, Progress (next a)) :
    Progress (peek short next) := by
  intro src b rest h
  cases src with
  | nil => cases h
  | cons a src => exact hnext a _ _ _ h

/-- An input that ends before an item does is too short. -/
theorem Stable.short_of_truncated
    {read : List α → Except ε (β × List α)} (hread : Stable short read)
    {whole : List α} {b : β} (hwhole : read whole = .ok (b, []))
    (hbegin : src <+: whole) (hne : src ≠ whole) :
    read src = .error short := by
  obtain ⟨more, rfl⟩ := hbegin
  cases h : read src with
  | error e =>
    by_cases he : e = short
    · rw [he]
    · rw [hread.error more h he] at hwhole
      cases hwhole
  | ok r =>
    rw [hread.ok more h] at hwhole
    have hnil := (Prod.mk.inj (ok.inj hwhole)).2
    have hmore : more = [] := (append_eq_nil_iff.1 hnil).2
    exact absurd (by rw [hmore, append_nil]) hne

-- ==== the loop

section Feed

variable [DecidableEq ε] (short) (read : List α → Except ε (ι × List α))
  (exec : σ → ι → Except ε σ)

/-- Items are read and carried out until the input is too short or one of them
fails. The state, the input that was not taken, and the error. -/
def feed : Nat → σ → List α → σ × List α × Option ε
  | 0, s, src => (s, src, none)
  | n + 1, s, src =>
    match read src with
    | .error e => (s, src, if e = short then none else some e)
    | .ok (i, rest) =>
      match exec s i with
      | .error e => (s, rest, some e)
      | .ok s => feed n s rest

end Feed

/-- A handler that is given the beginning of an input first, and then what it
left of it with the rest, does what it does with the whole. -/
def Splits (handle : σ → List α → σ × List α × Option ε) : Prop :=
  ∀ s src more, handle s (src ++ more) =
    match handle s src with
    | (s, rest, some e) => (s, rest ++ more, some e)
    | (s, rest, none) => handle s (rest ++ more)

section Feed

variable [DecidableEq ε] {read : List α → Except ε (ι × List α)}
  {exec : σ → ι → Except ε σ}

/-- More rounds than elements do not matter. -/
theorem feed_eq_of_le (hprogress : Progress read)
    (hnil : read [] = .error short) {m n : Nat} {s : σ}
    (hm : src.length ≤ m) (hn : src.length ≤ n) :
    feed short read exec m s src = feed short read exec n s src := by
  induction m generalizing n s src with
  | zero =>
    obtain rfl := eq_nil_of_length_eq_zero (Nat.le_zero.1 hm)
    cases n with
    | zero => rfl
    | succ n => simp [feed, hnil]
  | succ m ih =>
    cases n with
    | zero =>
      obtain rfl := eq_nil_of_length_eq_zero (Nat.le_zero.1 hn)
      simp [feed, hnil]
    | succ n =>
      rw [feed, feed]
      cases hread : read src with
      | error e => rfl
      | ok r =>
        have hlt := hprogress _ _ _ hread
        simp only
        cases exec s r.1 with
        | error e => rfl
        | ok s' => exact ih (by omega) (by omega)

/-- A loop over items does not see the pieces. -/
theorem feed_splits (hstable : Stable short read) (hprogress : Progress read)
    (hnil : read [] = .error short) :
    Splits fun s src => feed short read exec src.length s src := by
  intro s src more
  -- the induction is on the input that is there first
  induction hlen : src.length using Nat.strongRecOn generalizing s src with
  | _ n ih =>
    subst hlen
    cases hread : read src with
    | error e =>
      have hfeed : feed short read exec src.length s src =
          (s, src, if e = short then none else some e) := by
        cases src with
        | nil =>
          rw [hnil] at hread
          obtain rfl := error.inj hread
          rw [if_pos rfl]
          rfl
        | cons a src => rw [length_cons, feed, hread]
      simp only [hfeed]
      by_cases he : e = short
      · rw [if_pos he]
      have hmore := hstable.error more hread he
      cases hwhole : src ++ more with
      | nil =>
        rw [hwhole, hnil] at hmore
        exact absurd (error.inj hmore).symm he
      | cons a l =>
        rw [hwhole] at hmore
        simp only [length_cons, feed, hmore, if_neg he, hwhole]
    | ok r =>
      obtain ⟨i, rest⟩ := r
      have hlt := hprogress _ _ _ hread
      have hmore := hstable.ok more hread
      obtain ⟨k, hk⟩ : ∃ k, src.length = k + 1 := ⟨src.length - 1, by omega⟩
      have hk' : (src ++ more).length = (k + more.length) + 1 := by
        rw [length_append]
        omega
      simp only [hk, hk', feed, hread, hmore]
      cases hexec : exec s i with
      | error e => rfl
      | ok s' =>
        have hwhole : (rest ++ more).length ≤ k + more.length := by
          rw [length_append]
          omega
        simp only
        rw [feed_eq_of_le hprogress hnil hwhole (Nat.le_refl _),
          feed_eq_of_le hprogress hnil (show rest.length ≤ k by omega)
            (Nat.le_refl _)]
        exact ih rest.length hlt s' rest rfl

theorem feed_length_le (hprogress : Progress read) (n : Nat) (s : σ)
    (src : List α) : (feed short read exec n s src).2.1.length ≤
      src.length := by
  induction n generalizing s src with
  | zero => exact Nat.le_refl _
  | succ n ih =>
    rw [feed]
    cases hread : read src with
    | error e => exact Nat.le_refl _
    | ok r =>
      have hlt := hprogress _ _ _ hread
      simp only
      cases exec s r.1 with
      | error e => exact Nat.le_of_lt hlt
      | ok s' => exact Nat.le_trans (ih s' r.2) (Nat.le_of_lt hlt)

/-- What every item keeps is kept. -/
theorem feed_keeps {I : σ → Prop} {s : σ}
    (hexec : ∀ {s i s'}, I s → exec s i = .ok s' → I s')
    (h : I s) (n : Nat) (src : List α) :
    I (feed short read exec n s src).1 := by
  induction n generalizing s src with
  | zero => exact h
  | succ n ih =>
    rw [feed]
    cases read src with
    | error e => exact h
    | ok r =>
      simp only
      cases hi : exec s r.1 with
      | error e => exact h
      | ok s' => exact ih (hexec h hi) r.2

/-- A part of the state that no item reads does not matter. -/
theorem feed_view {view : σ → σ}
    (hview : ∀ s i, exec (view s) i = (exec s i).map view) (n : Nat) (s : σ)
    (src : List α) :
    feed short read exec n (view s) src =
      (view (feed short read exec n s src).1,
        (feed short read exec n s src).2) := by
  induction n generalizing s src with
  | zero => rfl
  | succ n ih =>
    rw [feed, feed]
    cases read src with
    | error e => rfl
    | ok r =>
      simp only [hview]
      cases exec s r.1 with
      | error e => rfl
      | ok s' => exact ih s' r.2

/-- Of an item that has not arrived in full nothing is taken and nothing is
done. -/
theorem feed_truncated (hstable : Stable short read) {whole : List α}
    {i : ι} (hwhole : read whole = .ok (i, [])) (hbegin : src <+: whole)
    (hne : src ≠ whole) (n : Nat) (s : σ) :
    feed short read exec n s src = (s, src, none) := by
  cases n with
  | zero => rfl
  | succ n =>
    rw [feed, hstable.short_of_truncated hwhole hbegin hne]
    simp

end Feed

-- ==== streams

/-- The receiving end of a stream: what the input drives, the input that waits
for more, how much was taken, and the error that ended it. -/
structure Receiver (α σ ε : Type) where
  state : σ
  recvbuf : List α
  consumed : Nat
  error : Option ε

/-- More input arrives; `γ` is what the handler finds around it. -/
def Receiver.receive (handle : γ → σ → List α → σ × List α × Option ε)
    (r : Receiver α σ ε) (env : γ) (input : List α) : Receiver α σ ε :=
  if r.error.isSome then r
  else
    let src := r.recvbuf ++ input
    if src.isEmpty then r
    else
      let h := handle env r.state src
      { state := h.1
        recvbuf := if h.2.2.isSome then src else h.2.1
        consumed := r.consumed + (src.length - h.2.1.length)
        error := h.2.2 }

/-- What a receiver has come to, against a handler `whole` given everything:
the same state, as far as `view` shows it, the same input taken, the same
error. -/
structure Receiver.Agrees (view : σ → τ) (r : Receiver α σ ε)
    (len : Nat) (whole : τ × List α × Option ε) : Prop where
  state : view r.state = whole.1
  consumed : r.consumed = len - whole.2.1.length
  error : r.error = whole.2.2

section Streams

variable {handle : γ → σ → List α → σ × List α × Option ε} {view : σ → τ}
  {handle' : τ → List α → τ × List α × Option ε}

theorem Receiver.receive_of_error {r : Receiver α σ ε} {e : ε}
    (h : r.error = some e) (pieces : List (γ × List α)) :
    pieces.foldl (fun r p => r.receive handle p.1 p.2) r = r := by
  induction pieces with
  | nil => rfl
  | cons p pieces ih =>
    rw [foldl_cons]
    have hr : r.receive handle p.1 p.2 = r := by
      rw [Receiver.receive, h]
      rfl
    rw [hr, ih]

variable (hview : ∀ env s src,
    (view (handle env s src).1, (handle env s src).2) = handle' (view s) src)
  (hsplits : Splits handle')
  (hle : ∀ t src, (handle' t src).2.1.length ≤ src.length)
include hview hsplits hle

/-- From a receiver whose waiting input has nothing for the handler. -/
theorem Receiver.receive_agrees {r : Receiver α σ ε} (herror : r.error = none)
    (hwaiting : handle' (view r.state) r.recvbuf =
      (view r.state, r.recvbuf, none))
    (pieces : List (γ × List α)) :
    (pieces.foldl (fun r p => r.receive handle p.1 p.2) r).Agrees view
      (r.consumed + (r.recvbuf ++ (pieces.map Prod.snd).flatten).length)
      (handle' (view r.state)
        (r.recvbuf ++ (pieces.map Prod.snd).flatten)) := by
  induction pieces generalizing r with
  | nil =>
    simp only [map_nil, flatten_nil, append_nil, hwaiting]
    exact ⟨rfl, (Nat.add_sub_cancel ..).symm, herror⟩
  | cons p pieces ih =>
    rw [foldl_cons, map_cons, flatten_cons, ← append_assoc]
    by_cases hsrc : r.recvbuf ++ p.2 = []
    · have hr : r.receive handle p.1 p.2 = r := by
        simp [Receiver.receive, hsrc]
      have hrest := ih herror hwaiting
      rw [(append_eq_nil_iff.1 hsrc).1] at hrest
      rw [hr, hsrc]
      exact hrest
    · generalize hlater : (pieces.map Prod.snd).flatten = later at ih ⊢
      have hstep := hview p.1 r.state (r.recvbuf ++ p.2)
      have hshort := hle (view r.state) (r.recvbuf ++ p.2)
      have hwhole := hsplits (view r.state) (r.recvbuf ++ p.2) later
      have hr : r.receive handle p.1 p.2 =
          { state := (handle p.1 r.state (r.recvbuf ++ p.2)).1
            recvbuf :=
              if (handle p.1 r.state (r.recvbuf ++ p.2)).2.2.isSome then
                r.recvbuf ++ p.2
              else (handle p.1 r.state (r.recvbuf ++ p.2)).2.1
            consumed := r.consumed + ((r.recvbuf ++ p.2).length -
              (handle p.1 r.state (r.recvbuf ++ p.2)).2.1.length)
            error := (handle p.1 r.state (r.recvbuf ++ p.2)).2.2 } := by
        simp [Receiver.receive, herror, hsrc]
      generalize handle p.1 r.state (r.recvbuf ++ p.2) = h at hr hstep
      obtain ⟨s, rest, err⟩ := h
      rw [hwhole, hr]
      cases err with
      | some e =>
        rw [← hstep] at hshort ⊢
        rw [Receiver.receive_of_error rfl]
        refine ⟨rfl, ?_, rfl⟩
        simp only [length_append] at hshort ⊢
        omega
      | none =>
        -- what is left has nothing for the handler, or it was taken
        have hagain := hsplits (view r.state) (r.recvbuf ++ p.2) []
        rw [append_nil, ← hstep] at hagain
        rw [← hstep] at hshort ⊢
        simp only [append_nil] at hagain
        obtain ⟨hstate, hconsumed, herr⟩ :=
          @ih ⟨s, rest, r.consumed + ((r.recvbuf ++ p.2).length - rest.length),
            none⟩ rfl
            hagain.symm
        refine ⟨hstate, ?_, herr⟩
        have hleft := hle (view s) (rest ++ later)
        simp only [length_append] at hconsumed hshort hleft ⊢
        simp only [Option.isSome_none, Bool.false_eq_true, if_false]
        omega

/-- However a stream is cut, its receiver ends as if it had arrived at
once. -/
theorem Splits.receive (hnil : ∀ t, handle' t [] = (t, [], none)) (s : σ)
    (pieces : List (γ × List α)) :
    Receiver.Agrees view
      (pieces.foldl (fun r p => Receiver.receive handle r p.1 p.2)
        (Receiver.mk s [] 0 none))
      (pieces.map Prod.snd).flatten.length
      (handle' (view s) (pieces.map Prod.snd).flatten) := by
  have h := Receiver.receive_agrees hview hsplits hle
    (r := ⟨s, [], 0, none⟩) rfl (hnil (view s)) pieces
  rwa [nil_append, Nat.zero_add] at h

end Streams

end H2o.Lib
